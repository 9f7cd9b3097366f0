import Federation.Proofs.Node.Decomposition

/-!
What a node makes of an element. A dialback stanza that names a valid pair is taken in and acted on
by its kind; of all other elements only stream errors and the features of a peer have an effect.
-/

namespace Federation.Node

variable {τ : Type}

/-- What stands in the stream envelope is no dialback stanza. -/
theorem isEnvelope_of_dialback {stanza : Element} {kind : DialbackKind}
    (h : DialbackKind.of? stanza = some kind) {name : String} (hresult : name ≠ "result")
    (hverify : name ≠ "verify") (labelled : String) :
    Stanza.isEnvelope name labelled stanza = false := by
  have hlocal : stanza.localName = "result" ∨ stanza.localName = "verify" := by
    unfold DialbackKind.of? at h
    split at h
    · cases h
    · split at h
      · rename_i hresult
        exact Or.inl (by simpa using hresult)
      · split at h
        · rename_i hverify
          exact Or.inr (by simpa using hverify)
        · cases h
  have hne : (stanza.localName == name) = false := by
    rcases hlocal with hlocal | hlocal
    · simpa [hlocal] using hresult.symm
    · simpa [hlocal] using hverify.symm
  simp [Stanza.isEnvelope, hne]

theorem isStreamError_of_dialback {stanza : Element} {kind : DialbackKind}
    (h : DialbackKind.of? stanza = some kind) : Stanza.isStreamError stanza = false :=
  isEnvelope_of_dialback h (by decide) (by decide) _

theorem of?_of_isStreamFeatures {stanza : Element} (h : Stanza.isStreamFeatures stanza) :
    DialbackKind.of? stanza = none := by
  cases hkind : DialbackKind.of? stanza with
  | none => rfl
  | some kind =>
    rw [Stanza.isStreamFeatures, isEnvelope_of_dialback hkind (by decide) (by decide)] at h
    cases h

theorem isStreamError_of_isStreamFeatures {stanza : Element} (h : Stanza.isStreamFeatures stanza) :
    Stanza.isStreamError stanza = false := by
  simp only [Stanza.isStreamFeatures, Stanza.isEnvelope, Bool.and_eq_true, beq_iff_eq] at h
  simp [Stanza.isStreamError, Stanza.isEnvelope, h.1]

variable [Transport τ] {n : Node τ} {conn : ConnId} {k : SessionKey} {stanza : Element}

theorem step_receive_of_dialback (settings : Settings) (hfind : n.find? conn = some k)
    {kind : DialbackKind} (hkind : DialbackKind.of? stanza = some kind) :
    n.step (Chain.standard settings) (.receive conn stanza) = n.receiveDialback k kind stanza := by
  simp only [step, receive, hfind, standard_eq, Chain.process, Processor.streamError,
    isStreamError_of_dialback hkind, Processor.dialback, hkind, Bool.false_eq_true, if_false]

/-- A dialback stanza that is heard on a connection is taken in, if it names a valid pair. -/
theorem moves_takeIn_of_heard (hn : n.WellFormed) (hfind : n.find? conn = some k)
    {kind : DialbackKind} (hkind : DialbackKind.of? stanza = some kind) {p : DomainPair}
    (hnamed : n.directory.pairNamed? stanza = some p) :
    Moves (.heard k stanza) n (n.takeIn k stanza.spelled p) :=
  moves_takeIn (by rw [(hn.live conn k hfind).2, hfind]) (by rw [hkind]; rfl) hnamed stanza.spelled

theorem step_receive_dialback (hn : n.WellFormed) (settings : Settings)
    (hfind : n.find? conn = some k) {kind : DialbackKind}
    (hkind : DialbackKind.of? stanza = some kind) {p : DomainPair}
    (hnamed : n.directory.pairNamed? stanza = some p) :
    n.step (Chain.standard settings) (.receive conn stanza) =
      (n.takeIn k stanza.spelled p).dispatchDialback k kind stanza.spelled p stanza := by
  rw [← receiveDialback_eq hn.entries hnamed kind, step_receive_of_dialback settings hfind hkind]

theorem step_receive_unnamed (hn : n.HasCanonicalEntries) (settings : Settings)
    (hfind : n.find? conn = some k) {kind : DialbackKind}
    (hkind : DialbackKind.of? stanza = some kind)
    (hnone : n.directory.pairNamed? stanza = none) :
    ∃ condition, n.step (Chain.standard settings) (.receive conn stanza) =
        n.failStream k condition false ∨
      n.step (Chain.standard settings) (.receive conn stanza) =
        (n.alter k (·.adoptPair stanza.spelled)).failStream k condition false := by
  rw [step_receive_of_dialback settings hfind hkind]
  exact receiveDialback_of_unnamed hn hnone kind

/-- A verdict that finds a key valid makes the session trusted if a key is outstanding on it. -/
theorem step_receive_valid (hn : n.WellFormed) (settings : Settings)
    (hfind : n.find? conn = some k) (hkind : DialbackKind.of? stanza = some .result)
    (htype : stanza.attr? "type" = some "valid") {p : DomainPair}
    (hnamed : n.directory.pairNamed? stanza = some p)
    (hrequest : (n.session k).hasKeyRequest p.peer) :
    n.step (Chain.standard settings) (.receive conn stanza) =
      ((n.takeIn k stanza.spelled p).alter k (·.dropKeyRequest p.peer)).authenticate p k := by
  have hrequest' : ((n.takeIn k stanza.spelled p).session k).hasKeyRequest p.peer :=
    (hasKeyRequest_takeIn n k _ p p.peer k).trans hrequest
  rw [step_receive_dialback hn settings hfind hkind hnamed]
  simp only [dispatchDialback, htype, Option.map_some, Verdict.parse, if_true, receiveVerdict]
  rw [if_pos hrequest']

theorem step_receive_key (hn : n.WellFormed) (settings : Settings) (hfind : n.find? conn = some k)
    (hkind : DialbackKind.of? stanza = some .result) (htype : stanza.attr? "type" = none)
    {p : DomainPair} (hnamed : n.directory.pairNamed? stanza = some p) :
    n.step (Chain.standard settings) (.receive conn stanza) =
      (n.takeIn k stanza.spelled p).receiveKey k stanza.spelled stanza := by
  rw [step_receive_dialback hn settings hfind hkind hnamed]
  simp only [dispatchDialback, htype, Option.map_none]

theorem step_receive_question (hn : n.WellFormed) (settings : Settings)
    (hfind : n.find? conn = some k) (hkind : DialbackKind.of? stanza = some .verify)
    (htype : stanza.attr? "type" = none) {p : DomainPair}
    (hnamed : n.directory.pairNamed? stanza = some p) :
    n.step (Chain.standard settings) (.receive conn stanza) =
      (n.takeIn k stanza.spelled p).answerVerify k stanza.spelled stanza := by
  rw [step_receive_dialback hn settings hfind hkind hnamed]
  simp only [dispatchDialback, htype, Option.map_none]

theorem step_receive_answer (hn : n.WellFormed) (settings : Settings)
    (hfind : n.find? conn = some k) (hkind : DialbackKind.of? stanza = some .verify)
    (htype : stanza.attr? "type" = some "valid") {p : DomainPair}
    (hnamed : n.directory.pairNamed? stanza = some p) :
    n.step (Chain.standard settings) (.receive conn stanza) =
      (n.takeIn k stanza.spelled p).receiveVerifyReply k p stanza .valid := by
  rw [step_receive_dialback hn settings hfind hkind hnamed]
  simp only [dispatchDialback, htype, Option.map_some, Verdict.parse, if_true]

theorem step_receive_other (settings : Settings) (hfind : n.find? conn = some k)
    (hkind : DialbackKind.of? stanza = none) :
    n.step (Chain.standard settings) (.receive conn stanza) =
      if Stanza.isStreamError stanza then n.stop k false
      else if (n.session k).role = .outbound ∧ Stanza.isStreamFeatures stanza then
        (n.receiveFeatures settings.workaround k stanza).2
      else n := by
  simp only [step, receive, hfind, standard_eq, Chain.process, Processor.streamError,
    Processor.dialback, hkind]
  by_cases herror : Stanza.isStreamError stanza
  · simp only [herror, if_true]
  · simp only [herror, Bool.false_eq_true, if_false]
    by_cases hfeatures : (n.session k).role = .outbound ∧ Stanza.isStreamFeatures stanza
    · simp only [hfeatures, decide_true, Bool.and_self, and_self, if_true]
      rcases n.receiveFeatures settings.workaround k stanza with ⟨consumed, m⟩
      cases consumed <;> rfl
    · have hother : (decide ((n.session k).role = .outbound) && Stanza.isStreamFeatures stanza) =
          false := by
        simpa using hfeatures
      simp only [hother, Bool.false_eq_true, hfeatures, if_false]

/-- The features of a peer count only on a connection that we opened. -/
theorem step_receive_features (settings : Settings) (hfind : n.find? conn = some k)
    (hfeatures : Stanza.isStreamFeatures stanza) (hrole : (n.session k).role = .outbound) :
    n.step (Chain.standard settings) (.receive conn stanza) =
      (n.receiveFeatures settings.workaround k stanza).2 := by
  rw [step_receive_other settings hfind (of?_of_isStreamFeatures hfeatures),
    isStreamError_of_isStreamFeatures hfeatures]
  simp [hrole, hfeatures]

/-- A session that is authenticated for a pair is trusted for it, and no other session is. -/
theorem isTrustedFor_authenticate_iff {p : DomainPair} (hk : k < n.sessions.length) (j : SessionKey)
    (q : DomainPair) : ((n.authenticate p k).session j).isTrustedFor q ↔
      (n.session j).isTrustedFor q ∨ j = k ∧ q = p := by
  have hflush := view_session_flushPair (·.isTrustedFor q) (fun _ => rfl) (n.trust p k) p j
  rw [authenticate, hflush]
  exact isTrustedFor_trust_iff hk j q

theorem isAuthenticated_authenticate {p : DomainPair} (hentry : (n.registry.get? p).isSome)
    (k : SessionKey) : (n.authenticate p k).registry.isAuthenticated p := by
  rw [authenticate, registry_flushPair]
  exact isAuthenticated_trust hentry k

end Federation.Node
