import Federation.Proofs.Node.Asking
import Federation.Proofs.Trust.Lifetime
import Federation.Proofs.Trust.PresentedKeys

/-!
Entries that no connection has. An entry is made before it is known whether a connection joins it:
when one is asked for, which the transport may refuse, and when a dialback stanza comes in on a
connection that we opened, whatever becomes of it. An entry that is left without links stays, since
entries are dropped only with the connection of their last link.
-/

namespace Federation

namespace Node

variable {τ : Type}

def IsLinkless (n : Node τ) (p : DomainPair) : Prop :=
  ∃ e, n.registry.get? p = some e ∧ e.links = []

theorem IsLinkless.of_eq {n m : Node τ} {p : DomainPair} (h : m.IsLinkless p)
    (hregistry : m.registry = n.registry) : n.IsLinkless p := by
  rwa [IsLinkless, hregistry] at h

theorem isLinkless_iff {n : Node τ} {p : DomainPair} :
    n.IsLinkless p ↔ (n.registry.get? p).isSome ∧ n.linkKeys p = [] := by
  unfold IsLinkless linkKeys
  cases n.registry.get? p <;> simp

theorem isLinkless_withEntry_self {n : Node τ} {p : DomainPair} :
    (n.withEntry p).IsLinkless p ↔ n.linkKeys p = [] := by
  rw [isLinkless_iff, linkKeys_withEntry]
  exact and_iff_right ((Registry.isSome_get?_ensure n.registry p p).mpr (Or.inl rfl))

theorem isLinkless_withEntry_of_ne {n : Node τ} {q p : DomainPair} (hne : p ≠ q) :
    (n.withEntry q).IsLinkless p ↔ n.IsLinkless p := by
  unfold IsLinkless withEntry
  rw [Registry.get?_ensure_of_ne n.registry hne]

/-- The end of a connection leaves no entry without links that had some. -/
theorem IsLinkless.of_connectionClosed {n : Node τ} {conn : ConnId} {p : DomainPair}
    (h : (n.connectionClosed conn).IsLinkless p) : n.IsLinkless p := by
  obtain ⟨e, he, hlinks⟩ := h
  cases hfind : n.find? conn with
  | none =>
    rw [connectionClosed, hfind] at he
    exact ⟨e, he, hlinks⟩
  | some k =>
    rcases of_get?_connectionClosed hfind he with hold | hsome
    · exact ⟨e, hold, hlinks⟩
    · exact absurd hlinks hsome

/-- A pair that gets a link has one. -/
theorem not_isLinkless_addLink (n : Node τ) (p : DomainPair) (k : SessionKey) :
    ¬ (n.addLink p k).IsLinkless p := by
  rintro ⟨e, he, hlinks⟩
  rw [registry_addLink_eq] at he
  obtain ⟨e₀, -, ⟨-, rfl⟩ | ⟨hne, -⟩⟩ :=
    Registry.get?_alter_eq_some (TrustEntry.pair_add _ _) he
  · obtain ⟨l, hl, -⟩ := Link.mem_insert_self (n.link k) (e₀.side (n.session k).role)
    rw [← TrustEntry.side_add_self] at hl
    rw [List.eq_nil_iff_forall_not_mem] at hlinks
    exact hlinks l (TrustEntry.mem_links_of_mem_side hl)
  · exact absurd rfl hne

theorem IsLinkless.of_addLink {n : Node τ} {q p : DomainPair} {k : SessionKey}
    (h : (n.addLink q k).IsLinkless p) : n.IsLinkless p ∧ p ≠ q := by
  have hne : p ≠ q := by
    rintro rfl
    exact not_isLinkless_addLink n p k h
  obtain ⟨e, he, hlinks⟩ := h
  rw [registry_addLink_eq, Registry.get?_alter_of_ne (TrustEntry.pair_add _ _) _ hne] at he
  exact ⟨⟨e, he, hlinks⟩, hne⟩

section TakeIn

variable (n : Node τ) (k : SessionKey) (spelled p : DomainPair)

/-- A dialback stanza brings its pair a link at once if it comes in on a connection of the peer. -/
theorem linkKeys_takeIn_eq_nil_iff : (n.takeIn k spelled p).linkKeys p = [] ↔
    (n.session k).role = .outbound ∧ n.linkKeys p = [] := by
  let noted := (n.alter k (·.adoptPair spelled)).withEntry p
  have hrole : (noted.session k).role = (n.session k).role :=
    view_session_alter Session.role (f := (·.adoptPair spelled)) (fun _ => rfl) n k k
  have htaken : n.takeIn k spelled p =
      if (n.session k).role = .inbound then noted.addIncoming p k else noted := by
    rw [← hrole]
    rfl
  cases hside : (n.session k).role with
  | inbound =>
    have hadded : n.takeIn k spelled p = noted.addLink p k := by
      rw [htaken, if_pos hside]
      simp only [addLink, hrole, hside]
    refine iff_of_false (fun hlinks => ?_) fun h => Role.noConfusion h.1
    have hlinkless := isLinkless_iff.mpr ⟨isSome_get?_takeIn n k spelled p, hlinks⟩
    rw [hadded] at hlinkless
    exact not_isLinkless_addLink noted p k hlinkless
  | outbound =>
    rw [htaken, if_neg (by rw [hside]; exact Role.noConfusion), and_iff_right rfl]
    exact Eq.congr_left (linkKeys_withEntry (n.alter k (·.adoptPair spelled)) p p)

end TakeIn

theorem IsLinkless.of_trust {n : Node τ} {q p : DomainPair} {k : SessionKey}
    (h : (n.trust q k).IsLinkless p) : n.IsLinkless p ∧ p ≠ q := by
  obtain ⟨e, he, hlinks⟩ := h
  obtain ⟨e₀, he₀, hsides⟩ := of_get?_trust he
  refine IsLinkless.of_addLink (k := k) ⟨e₀, he₀, ?_⟩
  rw [List.eq_nil_iff_forall_not_mem] at hlinks ⊢
  intro l hl
  obtain ⟨side, hside⟩ := TrustEntry.mem_links_iff.mp hl
  exact hlinks l (TrustEntry.mem_links_of_mem_side (by rwa [hsides side]))

variable [Transport τ]

theorem IsLinkless.of_authenticate {n : Node τ} {q p : DomainPair} {k : SessionKey}
    (h : (n.authenticate q k).IsLinkless p) : n.IsLinkless p ∧ p ≠ q :=
  (h.of_eq (registry_flushPair (n.trust q k) q)).of_trust

omit [Transport τ] in
theorem not_isLinkless_establish (n : Node τ) (p : DomainPair) (relayFor : Option String)
    (conn : ConnId) : ¬ (n.establish p relayFor conn).IsLinkless p := by
  rw [establish_eq_addLink]
  exact not_isLinkless_addLink _ p _

/-- A move leaves a pair without links only if it did not have an entry before, and for a cause
that concerns it. -/
theorem Move.isLinkless {n m : Node τ} {c : Cause} (h : Move c n m) {p : DomainPair}
    (hm : m.IsLinkless p) : n.IsLinkless p ∨ Concerns n p c := by
  rcases h.extends_or_closes with hextends | ⟨conn, k, hfind, rfl⟩
  · obtain ⟨e, he, hlinks⟩ := hm
    cases hget : n.registry.get? p with
    | none =>
      cases h.entryChange he with
      | fresh hconcerns => exact Or.inr hconcerns
      | kept _ he₀ | reduced _ _ he₀ | joined _ he₀ | linked _ he₀ | grantedInbound _ he₀
      | grantedOutbound _ he₀ =>
        rw [hget] at he₀
        cases he₀
    | some e₀ =>
      obtain ⟨e', he', -, hkeep⟩ := hextends p e₀ hget
      obtain rfl : e' = e := Option.some.inj (he'.symm.trans he)
      refine Or.inl ⟨e₀, hget, ?_⟩
      rw [List.eq_nil_iff_forall_not_mem] at hlinks ⊢
      intro l hl
      obtain ⟨side, hside⟩ := TrustEntry.mem_links_iff.mp hl
      exact hlinks l (TrustEntry.mem_links_of_mem_side (hkeep side l hside))
  · exact Or.inl hm.of_connectionClosed

theorem Moves.isLinkless {n m : Node τ} {c : Cause} (h : Moves c n m) {p : DomainPair}
    (hm : m.IsLinkless p) : n.IsLinkless p ∨ ∃ n', Moves c n n' ∧ Concerns n' p c := by
  induction h with
  | refl => exact Or.inl hm
  | tail hmoves hmove ih =>
    rcases hmove.isLinkless hm with hbefore | hconcerns
    · exact ih hbefore
    · exact Or.inr ⟨_, hmoves, hconcerns⟩

section Connect

variable {n : Node τ} (hn : n.HasCanonicalEntries) {pair p : DomainPair}
  (hcheck : DomainPair.checked pair.own pair.peer n.directory.isServed = .ok p)

include hn hcheck

/-- A connection that is asked for leaves its pair without links if the transport refuses it. -/
theorem isLinkless_openConnection_iff (relayFor : Option String) :
    (n.openConnection pair relayFor).2.IsLinkless p ↔
      n.linkKeys p = [] ∧ ∃ e, (n.connect p).1 = .error e := by
  have hconnect : ((n.withEntry p).connect p).1 = (n.connect p).1 := rfl
  rcases openConnection_cases hn hcheck relayFor with ⟨e, hrefused, heq⟩ | ⟨conn, hconn, heq⟩
  · rw [heq, and_iff_left ⟨e, hconnect ▸ hrefused⟩]
    exact isLinkless_withEntry_self
  · have hnot : ¬ ∃ e, (n.connect p).1 = .error e := by
      rintro ⟨e, hrefused⟩
      rw [hconnect, hrefused] at hconn
      cases hconn
    rw [iff_false_right fun h => hnot h.2]
    intro hlinkless
    refine not_isLinkless_establish ((n.withEntry p).connect p).2 p relayFor conn ?_
    rcases heq with heq | heq <;> rw [heq] at hlinkless
    · exact hlinkless
    · exact hlinkless.of_connectionClosed

theorem isLinkless_requestVerification_iff (id key : String) :
    (n.requestVerification pair id key).2.IsLinkless p ↔
      n.linkKeys p = [] ∧ ∃ e, (n.connect p).1 = .error e := by
  have hp : p.IsCanonical n.directory.isServed := DomainPair.isCanonical_of_checked hcheck
  rw [requestVerification_eq hn hcheck]
  rcases verifier_cases hn hp with
    ⟨r, husable, hverifier⟩ | ⟨-, ⟨e, hrefused, hverifier⟩ | ⟨conn, hconn, hopened⟩⟩
  · have hlinks : n.linkKeys p ≠ [] :=
      List.ne_nil_of_mem (mem_linkKeys_of_usableOutgoing? husable)
    simp only [hverifier]
    refine iff_of_false (fun h => hlinks ?_) fun h => hlinks h.1
    exact isLinkless_withEntry_self.mp (h.of_eq (registry_ask _ r p id key))
  · simp only [hverifier]
    rw [and_iff_left ⟨e, hrefused⟩]
    exact isLinkless_withEntry_self
  · have hnot : ¬ ∃ e, (n.connect p).1 = .error e := by
      rintro ⟨e, hrefused⟩
      rw [hrefused] at hconn
      cases hconn
    refine iff_of_false (fun hlinkless => ?_) fun h => hnot h.2
    refine not_isLinkless_establish ((n.withEntry p).connect p).2 p (some p.peer) conn ?_
    rcases hopened with hverifier | hverifier <;> simp only [hverifier] at hlinkless
    · exact hlinkless.of_eq (registry_ask _ _ p id key)
    · exact (hlinkless.of_eq (registry_ask _ _ p id key)).of_connectionClosed

end Connect

/-- A dialback stanza brings its pair no link of a connection that we opened: a key is refused, or
the stream fails on it, or there is no connection to ask over; a verdict finds no key valid that is
outstanding; and neither a question nor its answer ever does. -/
def Neglects (n : Node τ) (k : SessionKey) (p : DomainPair) (kind : DialbackKind)
    (stanza : Element) : Prop :=
  match kind, (stanza.attr? "type").map Verdict.parse with
  | .result, none =>
    (n.demandsTls ((n.session k).pairOr stanza.spelled) ∧ (n.session k).tlsActive = false) ∨
      Text.trim (stanza.cdata.getD "") = "" ∨ ∃ e, (n.connect p).1 = .error e
  | .result, some .valid => ¬ (n.session k).hasKeyRequest p.peer
  | _, _ => True

theorem registry_presentKey (n : Node τ) (k : SessionKey) :
    (n.presentKey k).registry = n.registry := by
  unfold presentKey
  simp only
  split
  · exact registry_stop _ k false
  split
  · exact registry_stop _ k false
  split
  · exact registry_stop _ k false
  · rw [registry_flush]
    split <;> rfl

theorem registry_answerVerify (n : Node τ) (k : SessionKey) (pair : DomainPair)
    (stanza : Element) : (n.answerVerify k pair stanza).registry = n.registry := by
  unfold answerVerify
  split
  · exact registry_stop _ k false
  · rfl

section Dispatch

variable {n : Node τ} (hn : n.HasCanonicalEntries) {k : SessionKey} {p : DomainPair}
  {stanza : Element} (hentry : (n.registry.get? p).isSome)

include hentry

omit [Transport τ] in
theorem isLinkless_iff_of_registry_eq {m : Node τ} (hregistry : m.registry = n.registry) :
    m.IsLinkless p ↔ n.linkKeys p = [] := by
  rw [IsLinkless, hregistry]
  exact isLinkless_iff.trans (and_iff_right hentry)

theorem isLinkless_receiveVerdict_iff (verdict : Verdict) :
    (n.receiveVerdict k p verdict).IsLinkless p ↔
      n.linkKeys p = [] ∧ (verdict = .valid → ¬ (n.session k).hasKeyRequest p.peer) := by
  unfold receiveVerdict
  cases verdict with
  | valid =>
    simp only [forall_const]
    split
    · rename_i hrequest
      exact iff_of_false (fun h => h.of_authenticate.2 rfl) fun h => h.2 hrequest
    · rename_i hnone
      rw [and_iff_left hnone]
      exact isLinkless_iff_of_registry_eq hentry rfl
  | invalid | error =>
    simp only [reduceCtorEq, false_implies, and_true]
    exact isLinkless_iff_of_registry_eq hentry (registry_stop n k false)

theorem isLinkless_receiveVerifyReply_iff (verdict : Verdict) :
    (n.receiveVerifyReply k p stanza verdict).IsLinkless p ↔ n.linkKeys p = [] := by
  have hstop : (n.receiveVerifyReply k p stanza verdict).registry =
      (n.relayVerdict k p stanza verdict).registry := by
    unfold receiveVerifyReply
    simp only
    split
    · exact registry_stop _ k false
    · rfl
  rw [IsLinkless, hstop]
  have hkept : n.IsLinkless p ↔ n.linkKeys p = [] := isLinkless_iff_of_registry_eq hentry rfl
  change (n.relayVerdict k p stanza verdict).IsLinkless p ↔ _
  unfold relayVerdict
  split
  · exact hkept
  · rename_i id hid
    split
    · exact hkept
    · let settled := n.alter k (·.dropVerifyRequest p.peer id)
      by_cases hvalid : verdict = .valid
      · simp only [hvalid, decide_true, if_true, authenticateByStream]
        -- An answer goes to a link of the pair, so without links there is none to trust.
        cases htarget : settled.incomingByStream? p id with
        | none => exact hkept
        | some t =>
          have hlink : t ∈ n.linkKeys p :=
            mem_linkKeys_of_mem_incomingKeys (n := settled) (List.mem_of_find?_eq_some htarget)
          refine iff_of_false (fun h => ?_) (List.ne_nil_of_mem hlink)
          exact (IsLinkless.of_authenticate (n := settled) (k := t) h).2 rfl
      · simp only [hvalid, decide_false, Bool.false_eq_true, if_false]
        cases settled.incomingByStream? p id with
        | none => exact hkept
        | some t => exact hkept

variable (hcheck :
  DomainPair.checked stanza.spelled.own stanza.spelled.peer n.directory.isServed = .ok p)

include hn hcheck

theorem isLinkless_receiveKey_iff :
    (n.receiveKey k stanza.spelled stanza).IsLinkless p ↔ n.linkKeys p = [] ∧
      ((n.demandsTls ((n.session k).pairOr stanza.spelled) ∧ (n.session k).tlsActive = false) ∨
        Text.trim (stanza.cdata.getD "") = "" ∨ ∃ e, (n.connect p).1 = .error e) := by
  have hasked := isLinkless_requestVerification_iff
    (n := n.alter k (·.setPhase .awaitingVerify)) hn hcheck (n.session k).streamId
    (Text.trim (stanza.cdata.getD ""))
  have hconnect : ((n.alter k (·.setPhase .awaitingVerify)).connect p).1 = (n.connect p).1 := rfl
  have hlinks : (n.alter k (·.setPhase .awaitingVerify)).linkKeys p = n.linkKeys p := rfl
  rw [hconnect, hlinks] at hasked
  rcases n.receiveKey_cases k stanza.spelled stanza with
    ⟨hrefused, heq⟩ | ⟨-, hblank, heq⟩ | ⟨hallowed, hkey, heq⟩
  · rw [heq, and_iff_left (Or.inl hrefused)]
    exact isLinkless_iff_of_registry_eq hentry rfl
  · rw [heq, and_iff_left (Or.inr (Or.inl hblank))]
    exact isLinkless_iff_of_registry_eq hentry (registry_stop _ k false)
  · rw [or_iff_right hallowed, or_iff_right hkey, ← hasked]
    rcases heq with heq | heq <;> rw [heq]
    exact Iff.rfl

theorem isLinkless_dispatchDialback_iff (kind : DialbackKind) :
    (n.dispatchDialback k kind stanza.spelled p stanza).IsLinkless p ↔
      n.linkKeys p = [] ∧ n.Neglects k p kind stanza := by
  unfold dispatchDialback Neglects
  cases kind with
  | result =>
    cases (stanza.attr? "type").map Verdict.parse with
    | none => exact isLinkless_receiveKey_iff hn hentry hcheck
    | some verdict =>
      simp only
      rw [isLinkless_receiveVerdict_iff hentry]
      cases verdict <;> simp
  | verify =>
    cases (stanza.attr? "type").map Verdict.parse with
    | none =>
      rw [and_iff_left trivial]
      exact isLinkless_iff_of_registry_eq hentry (registry_answerVerify n k _ stanza)
    | some verdict =>
      rw [and_iff_left trivial]
      exact isLinkless_receiveVerifyReply_iff hentry verdict

end Dispatch

/-- The features of a peer make no entry without links. -/
theorem IsLinkless.of_receiveFeatures {n : Node τ} (hn : n.HasCanonicalEntries) {k : SessionKey}
    {p : DomainPair} {workaround : Bool} {features : Element}
    (h : (n.receiveFeatures workaround k features).2.IsLinkless p) : n.IsLinkless p := by
  unfold receiveFeatures at h
  simp only [entry_eq hn] at h
  split at h
  · exact h
  cases hpair : (n.session k).pair with
  | none =>
    rw [hpair] at h
    exact h
  | some pair =>
    simp only [hpair] at h
    split at h
    · exact h
    · split at h
      · cases hcheck : DomainPair.checked pair.own pair.peer n.directory.isServed with
        | error e =>
          rw [hcheck] at h
          exact h.of_eq (registry_stop _ k true)
        | ok q =>
          rw [hcheck] at h
          obtain ⟨hlinkless, hne⟩ := IsLinkless.of_authenticate h
          exact (isLinkless_withEntry_of_ne hne).mp hlinkless
      · split at h
        · exact h.of_eq (registry_stop _ k true)
        · exact h.of_eq (registry_presentKey n k)

/-- What leaves the entry of a pair without links that has none: a connection for it that the
transport refuses, asked for by a caller, and a dialback stanza on a connection that we opened that
brings it no link. -/
inductive Abandons (n : Node τ) (p : DomainPair) : Event → Prop
  | opening (pair : DomainPair) (relayFor : Option String) (e : TransportError)
      (hcheck : DomainPair.checked pair.own pair.peer n.directory.isServed = .ok p)
      (hrefused : (n.connect p).1 = .error e) : Abandons n p (.openConnection pair relayFor)
  | asking (pair : DomainPair) (id key : String) (e : TransportError)
      (hcheck : DomainPair.checked pair.own pair.peer n.directory.isServed = .ok p)
      (hrefused : (n.connect p).1 = .error e) : Abandons n p (.requestVerification pair id key)
  | heard (conn : ConnId) (k : SessionKey) (stanza : Element) (kind : DialbackKind)
      (hfind : n.find? conn = some k) (hrole : (n.session k).role = .outbound)
      (hkind : DialbackKind.of? stanza = some kind)
      (hnamed : n.directory.pairNamed? stanza = some p)
      (hneglected : n.Neglects k p kind stanza) : Abandons n p (.receive conn stanza)

section Step

variable {n : Node τ} (hn : n.WellFormed) (settings : Settings) {p : DomainPair}

include hn

theorem isLinkless_receive_iff {conn : ConnId} {k : SessionKey} {stanza : Element}
    {kind : DialbackKind} (hfind : n.find? conn = some k)
    (hkind : DialbackKind.of? stanza = some kind)
    (hnamed : n.directory.pairNamed? stanza = some p) :
    (n.step (Chain.standard settings) (.receive conn stanza)).IsLinkless p ↔
      (n.session k).role = .outbound ∧ n.linkKeys p = [] ∧ n.Neglects k p kind stanza := by
  let taken := n.takeIn k stanza.spelled p
  have hlive : n.find? (n.session k).conn = some k := by rw [(hn.live conn k hfind).2, hfind]
  have htaken : Moves (.heard k stanza) n taken :=
    moves_takeIn hlive (by rw [hkind]; rfl) hnamed stanza.spelled
  have hview : ∀ {α : Type} (view : Session → α),
      (∀ s, view (s.adoptPair stanza.spelled) = view s) → (∀ s, view (s.join p) = view s) →
      view (taken.session k) = view (n.session k) :=
    fun view hadopt hjoin => view_session_takeIn n k _ p view hadopt hjoin k
  have hneglects : taken.Neglects k p kind stanza ↔ n.Neglects k p kind stanza := by
    have hconnect : (taken.connect p).1 = (n.connect p).1 := by
      simp only [taken, connect, transport_takeIn]
    have hrequest := hview (·.hasKeyRequest p.peer) (fun _ => rfl) fun _ => rfl
    unfold Neglects
    rw [demandsTls_takeIn, pairOr_takeIn, tlsActive_takeIn, hconnect, hrequest]
  rw [step_receive_dialback hn settings hfind hkind hnamed,
    isLinkless_dispatchDialback_iff (Moves.hasCanonicalEntries htaken hn.entries)
      (isSome_get?_takeIn n k _ p) (by
        rw [directory_takeIn]
        exact (checked_of_pairNamed? hnamed).2.2), hneglects, linkKeys_takeIn_eq_nil_iff, and_assoc]

theorem isLinkless_step {event : Event}
    (h : (n.step (Chain.standard settings) event).IsLinkless p) :
    n.IsLinkless p ∨ Abandons n p event ∧ n.linkKeys p = [] := by
  rcases Moves.isLinkless (step_moves hn settings event) h with hbefore | ⟨n', hmoves, hconcerns⟩
  · exact Or.inl hbefore
  have hdirectory := Moves.directory_eq hmoves
  generalize hcause : n.cause event = c at hmoves hconcerns
  cases hconcerns with
  | named k stanza hkind hnamed =>
    obtain ⟨conn, rfl, hfind⟩ := exists_of_cause_eq_heard hcause
    obtain ⟨kind, hkind⟩ := Option.isSome_iff_exists.mp hkind
    rw [hdirectory] at hnamed
    obtain ⟨hrole, hlinks, hneglected⟩ :=
      (isLinkless_receive_iff hn settings hfind hkind hnamed).mp h
    exact Or.inr ⟨.heard conn k stanza kind hfind hrole hkind hnamed hneglected, hlinks⟩
  | own k stanza pair hkind =>
    obtain ⟨conn, rfl, hfind⟩ := exists_of_cause_eq_heard hcause
    refine Or.inl ?_
    rw [step_receive_other settings hfind hkind] at h
    split at h
    · exact h.of_eq (registry_stop n k false)
    · split at h
      · exact h.of_receiveFeatures hn.entries
      · exact h
  | opening pair relayFor hcheck =>
    obtain rfl := eq_of_cause_eq_call hcause
    rw [hdirectory] at hcheck
    obtain ⟨hlinks, e, hrefused⟩ := (isLinkless_openConnection_iff hn.entries hcheck relayFor).mp h
    exact Or.inr ⟨.opening pair relayFor e hcheck hrefused, hlinks⟩
  | asking pair id key hcheck =>
    obtain rfl := eq_of_cause_eq_call hcause
    rw [hdirectory] at hcheck
    obtain ⟨hlinks, e, hrefused⟩ :=
      (isLinkless_requestVerification_iff hn.entries hcheck id key).mp h
    exact Or.inr ⟨.asking pair id key e hcheck hrefused, hlinks⟩

theorem Abandons.isLinkless {event : Event} (h : Abandons n p event) (hlinks : n.linkKeys p = []) :
    (n.step (Chain.standard settings) event).IsLinkless p := by
  cases h with
  | opening pair relayFor e hcheck hrefused =>
    exact (isLinkless_openConnection_iff hn.entries hcheck relayFor).mpr ⟨hlinks, e, hrefused⟩
  | asking pair id key e hcheck hrefused =>
    exact (isLinkless_requestVerification_iff hn.entries hcheck id key).mpr ⟨hlinks, e, hrefused⟩
  | heard conn k stanza kind hfind hrole hkind hnamed hneglected =>
    exact (isLinkless_receive_iff hn settings hfind hkind hnamed).mpr ⟨hrole, hlinks, hneglected⟩

end Step

end Node

namespace Setup

variable {τ : Type} [Transport τ] (setup : Setup τ)

/-- Every entry without links was left behind by an event at which its pair had no links and got
none, and nothing has happened to it since. Every such event leaves one behind, and the end of a
connection does not take it away. -/
theorem linkless_entries (past : List (Occurrence τ)) :
    (∀ p, (setup.after past).IsLinkless p →
      ∃ before event rest, past = before ++ .event event :: rest ∧
        Node.Abandons (setup.after before) p event ∧ (setup.after before).linkKeys p = [] ∧
        ∀ mid, mid <+: rest → (setup.after (before ++ .event event :: mid)).IsLinkless p) ∧
    (∀ event p, Node.Abandons (setup.after past) p event → (setup.after past).linkKeys p = [] →
      (setup.after (past ++ [.event event])).IsLinkless p) ∧
    (((setup.after past).sessions.map (·.conn)).Nodup → ∀ conn p,
      (setup.after past).IsLinkless p →
      ((setup.after past).connectionClosed conn).IsLinkless p) := by
  refine ⟨fun p hp => ?_, fun event p habandons hlinks => ?_, fun hconns conn p hp => ?_⟩
  · obtain ⟨before, event, rest, heq, hnot, hsince⟩ := setup.exists_since
      (P := fun n => n.IsLinkless p) (by rintro ⟨e, he, -⟩; cases he) (fun _ _ _ hn => hn) hp
    have hafter := hsince [] List.nil_prefix
    rw [after_snoc, next_event] at hafter
    rcases Node.isLinkless_step (setup.wellFormed_after before) setup.settings hafter with
      hold | ⟨habandons, hlinks⟩
    · exact absurd hold hnot
    · exact ⟨before, event, rest, heq, habandons, hlinks, hsince⟩
  · rw [after_snoc, next_event]
    exact habandons.isLinkless (setup.wellFormed_after past) setup.settings hlinks
  · obtain ⟨e, he, hlinks⟩ := hp
    cases hfind : (setup.after past).find? conn with
    | none =>
      rw [Node.connectionClosed, hfind]
      exact ⟨e, he, hlinks⟩
    | some k =>
      have hdeparts := (setup.coherent_after hconns).departs (setup.wellFormed_after past) hfind
      exact ⟨e, hdeparts.untouched p e he (by rw [hlinks]; exact fun _ => List.not_mem_nil.elim),
        hlinks⟩

/-- A verdict that nobody asked for leaves an entry, and it is there when no connection is left. -/
theorem linkless_entries_of_unsolicited_verdict :
    let verdict := Stanza.resultReply "c.example" "b.example" .valid none
    let past := keySent ⟨"b.example", "a.example"⟩
    let p : DomainPair := ⟨"b.example", "c.example"⟩
    let n := served.after (past ++ [.event (.receive ⟨1000⟩ verdict)])
    Node.Abandons (served.after past) p (.receive ⟨1000⟩ verdict) ∧
    (served.after past).linkKeys p = [] ∧ n.IsLinkless p ∧
    (n.sessions.map (·.conn)).Nodup ∧ (n.connectionClosed ⟨1000⟩).IsLinkless p ∧
    (n.connectionClosed ⟨1000⟩).live = [] := by
  intro verdict past p n
  have hbefore : (served.after past).find? ⟨1000⟩ = some 0 ∧
      ((served.after past).session 0).role = .outbound ∧
      (served.after past).directory.pairNamed? verdict = some p ∧
      ¬ ((served.after past).session 0).hasKeyRequest p.peer ∧
      (served.after past).linkKeys p = [] := by
    rw [after_eq_foldl]
    decide +kernel
  have hafter : (n.sessions.map (·.conn)).Nodup ∧ (n.connectionClosed ⟨1000⟩).live = [] := by
    simp only [n]
    rw [after_eq_foldl]
    decide +kernel
  obtain ⟨hfind, hrole, hnamed, hnone, hlinks⟩ := hbefore
  have habandons : Node.Abandons (served.after past) p (.receive ⟨1000⟩ verdict) := by
    refine .heard ⟨1000⟩ 0 verdict .result hfind hrole (Stanza.of?_resultReply _ _ _ _) hnamed ?_
    have htype : (verdict.attr? "type").map Verdict.parse = some .valid := by decide +kernel
    unfold Node.Neglects
    rw [htype]
    exact hnone
  have hleft := (served.linkless_entries past).2.1 _ p habandons hlinks
  exact ⟨habandons, hlinks, hleft, hafter.1,
    (served.linkless_entries _).2.2 hafter.1 ⟨1000⟩ p hleft, hafter.2⟩

end Setup

end Federation
