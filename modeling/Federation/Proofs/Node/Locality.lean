import Federation.Proofs.Node.Confinement
import Federation.Proofs.Node.Receipt

/-!
What a node hears on a session concerns one pair at most, and what it does about it is confined to
this session and this pair. A relay that is opened for the pair is all that is new.
-/

namespace Federation.Node

variable {τ : Type}

/-- The pair that is concerned by what is heard on a session: the one that a dialback stanza names,
or that of the session itself if its peer sends its features. -/
def subject? (n : Node τ) (k : SessionKey) (e : Element) : Option DomainPair :=
  if (DialbackKind.of? e).isSome then n.directory.pairNamed? e
  else if Stanza.isStreamFeatures e then
    (n.session k).pair.bind fun pair =>
      (DomainPair.checked pair.own pair.peer n.directory.isServed).toOption
  else none

theorem subject?_of_dialback {n : Node τ} {k : SessionKey} {e : Element} {kind : DialbackKind}
    (h : DialbackKind.of? e = some kind) : n.subject? k e = n.directory.pairNamed? e := by
  simp [subject?, h]

theorem subject?_of_features {n : Node τ} {k : SessionKey} {e : Element} {pair p : DomainPair}
    (h : Stanza.isStreamFeatures e) (hpair : (n.session k).pair = some pair)
    (hcheck : DomainPair.checked pair.own pair.peer n.directory.isServed = .ok p) :
    n.subject? k e = some p := by
  simp [subject?, of?_of_isStreamFeatures h, h, hpair, hcheck, Except.toOption]

theorem mem_linkKeys_of_mem_incomingKeys {n : Node τ} {p : DomainPair} {k : SessionKey}
    (h : k ∈ n.incomingKeys p) : k ∈ n.linkKeys p := by
  obtain ⟨e, he, l, hl, rfl⟩ := mem_incomingKeys_iff.mp h
  exact mem_linkKeys_iff.mpr ⟨e, he, .inbound, l, hl, rfl⟩

theorem mem_linkKeys_of_mem_outgoingKeys {n : Node τ} {p : DomainPair} {k : SessionKey}
    (h : k ∈ n.outgoingKeys p) : k ∈ n.linkKeys p := by
  obtain ⟨e, he, l, hl, rfl⟩ := mem_outgoingKeys_iff.mp h
  exact mem_linkKeys_iff.mpr ⟨e, he, .outbound, l, hl, rfl⟩

variable [Transport τ] {S : SessionKey → Prop} {P : DomainPair → Prop} {n : Node τ}

theorem mem_linkKeys_of_usableOutgoing? {p : DomainPair} {k : SessionKey}
    (h : n.usableOutgoing? p = some k) : k ∈ n.linkKeys p :=
  mem_linkKeys_of_mem_outgoingKeys (of_usableOutgoing? h).1

section Questions

variable (hn : n.HasCanonicalEntries) {pair p : DomainPair} (hp : P p)

include hn hp

theorem Confined.openConnection
    (hcheck : DomainPair.checked pair.own pair.peer n.directory.isServed = .ok p)
    (relayFor : Option String) : Confined S P 1 n (n.openConnection pair relayFor).2 ∧
      ∀ k, (n.openConnection pair relayFor).1 = .ok k → n.sessions.length ≤ k := by
  have hasked : Confined S P 0 n ((n.withEntry p).connect p).2 :=
    (Confined.withEntry n hp).tail (.connect hp)
  rcases openConnection_cases hn hcheck relayFor with ⟨e, -, heq⟩ | ⟨conn, -, heq | heq⟩
  · rw [heq]
    exact ⟨hasked.weaken (Nat.zero_le 1), fun k hk => by cases hk⟩
  · rw [heq]
    refine ⟨hasked.tail (.establish hp relayFor conn), fun k hk => ?_⟩
    cases hk
    exact Nat.le_refl _
  · rw [heq]
    refine ⟨hasked.tail (.establish_connectionClosed hp relayFor conn), fun k hk => ?_⟩
    cases hk
    exact Nat.le_refl _

/-- Whom a question is put to is a link of the pair or new. -/
theorem Confined.verifier (hcanonical : p.IsCanonical n.directory.isServed) :
    Confined S P 1 n (n.verifier p).2 ∧ ∀ k, (n.verifier p).1 = .ok k →
      k ∈ (n.verifier p).2.linkKeys p ∨ n.sessions.length ≤ k := by
  unfold Node.verifier
  cases husable : n.usableOutgoing? p with
  | some j =>
    refine ⟨(Confined.refl n).weaken (Nat.zero_le 1), fun k hk => ?_⟩
    cases hk
    exact Or.inl (mem_linkKeys_of_usableOutgoing? husable)
  | none =>
    obtain ⟨hopened, hnew⟩ := Confined.openConnection (S := S) hn hp hcanonical (some p.peer)
    exact ⟨hopened, fun k hk => Or.inr (hnew k hk)⟩

theorem Confined.requestVerification
    (hcheck : DomainPair.checked pair.own pair.peer n.directory.isServed = .ok p)
    (id key : String) : Confined S P 1 n (n.requestVerification pair id key).2 := by
  have hentry : Confined S P 0 n (n.withEntry p) := .withEntry n hp
  have hcanonical : p.IsCanonical n.directory.isServed := DomainPair.isCanonical_of_checked hcheck
  have hn' : (n.withEntry p).HasCanonicalEntries := hn.withEntry hcanonical
  obtain ⟨hasked, hcarrier⟩ := Confined.verifier (S := S) hn' hp hcanonical
  unfold Node.requestVerification
  rw [entry_eq hn, hcheck]
  simp only
  rcases hresult : (n.withEntry p).verifier p with ⟨outcome, m⟩
  rw [hresult] at hasked hcarrier
  have hverifier : Confined S P 1 n m := hentry.tail hasked
  cases outcome with
  | error e => exact hverifier
  | ok k =>
    let requested := m.alter k (·.addVerifyRequest p.peer id)
    let queued := requested.alter k (·.enqueue (Stanza.verifyRequest p.own p.peer id key))
    have hqueue : Confined (fun j => S j ∨ n.sessions.length ≤ j) P 0 m queued :=
      (Confined.alter (f := (·.addVerifyRequest p.peer id)) (fun _ => rfl) m k).tail
        (.alter (f := (·.enqueue (Stanza.verifyRequest p.own p.peer id key))) (fun _ => rfl)
          requested k)
    have hreach : (S k ∨ n.sessions.length ≤ k) ∨ ∃ q, P q ∧ k ∈ queued.linkKeys q := by
      rcases hcarrier k rfl with hlink | hnew
      · exact Or.inr ⟨p, hp, hlink⟩
      · exact Or.inl (Or.inr hnew)
    simp only
    split
    · exact hverifier.trans (hqueue.tail (.flush hreach))
    · exact hverifier.trans hqueue

end Questions

section Session

variable {k : SessionKey} (hk : k < n.sessions.length) (hS : S k)

include hk hS

theorem Confined.presentKey : Confined S P 0 n (n.presentKey k) := by
  unfold Node.presentKey
  cases hid : (n.session k).peerStreamId with
  | none => simpa only [hid] using Confined.failStream hk hS _ false
  | some id =>
    cases hpair : (n.session k).pair with
    | none => simpa only [hid, hpair] using Confined.failStream hk hS _ false
    | some pair =>
      cases hsecret : n.directory.secretFor pair.own with
      | error e => simpa only [hid, hpair, hsecret] using Confined.failStream hk hS _ false
      | ok secret =>
        have hmethod : Confined S P 0 n (n.alter k (·.setMethod dialbackMethod)) :=
          .alter (f := (·.setMethod dialbackMethod)) (fun _ => rfl) n k
        simp only [hid, hpair, hsecret]
        split
        · exact (hmethod.tail (.setPhase _ _ _)).tail (.flush (Or.inl hS))
        · let key := Key.derive pair.own pair.peer secret id
          let noted := (n.alter k (·.setMethod dialbackMethod)).alter k (·.addKeyRequest pair.peer)
          have hnoted : Confined S P 0 n noted :=
            hmethod.tail (.alter (f := (·.addKeyRequest pair.peer)) (fun _ => rfl) _ k)
          have hqueued := hnoted.tail
            (Confined.alter (S := S) (P := P) (f := (·.enqueue (Stanza.key pair.own pair.peer key)))
              (fun _ => rfl) noted k)
          exact (hqueued.tail (.setPhase _ _ _)).tail (.flush (Or.inl hS))

theorem Confined.receiveFeatures (hn : n.HasCanonicalEntries) (workaround : Bool)
    {features : Element} (hfeatures : Stanza.isStreamFeatures features)
    (hP : ∀ p, n.subject? k features = some p → P p) :
    Confined S P 0 n (n.receiveFeatures workaround k features).2 := by
  unfold Node.receiveFeatures
  simp only [entry_eq hn]
  split
  · exact .refl n
  · cases hpair : (n.session k).pair with
    | none => exact .refl n
    | some pair =>
      simp only
      split
      · exact .setPhase n k .tlsDecision
      · split
        · cases hcheck : DomainPair.checked pair.own pair.peer n.directory.isServed with
          | error e => exact .failStream hk hS _ true
          | ok p =>
            have hp := hP p (subject?_of_features hfeatures hpair hcheck)
            have hmethod : Confined S P 0 n
                ((n.withEntry p).alter k (·.setMethod certificateMethod)) :=
              (Confined.withEntry n hp).tail
                (.alter (f := (·.setMethod certificateMethod)) (fun _ => rfl) _ k)
            exact hmethod.tail (.authenticate hp (Or.inl hS))
        · split
          · exact .failStream hk hS _ true
          · exact .presentKey hk hS

section Dialback

variable {pair p : DomainPair} (hp : P p) (stanza : Element)

theorem Confined.receiveKey (hn : n.HasCanonicalEntries) (hp : P p)
    (hcheck : DomainPair.checked pair.own pair.peer n.directory.isServed = .ok p) :
    Confined S P 1 n (n.receiveKey k pair stanza) := by
  unfold Node.receiveKey
  simp only
  split
  · exact (Confined.sendNow hk (Or.inl hS) _).weaken (Nat.zero_le 1)
  · split
    · exact (Confined.failStream hk hS _ false).weaken (Nat.zero_le 1)
    · have hphase : Confined S P 0 n (n.alter k (·.setPhase .awaitingVerify)) :=
        .setPhase n k .awaitingVerify
      have hasked := hphase.tail (Confined.requestVerification (S := S)
        (n := n.alter k (·.setPhase .awaitingVerify)) hn hp hcheck (n.session k).streamId
        (Text.trim (stanza.cdata.getD "")))
      rcases hresult : (n.alter k (·.setPhase .awaitingVerify)).requestVerification pair
        (n.session k).streamId (Text.trim (stanza.cdata.getD "")) with ⟨outcome, m⟩
      rw [hresult] at hasked
      cases outcome with
      | ok _ => exact hasked
      | error e =>
        have hk' : k < m.sessions.length := Nat.lt_of_lt_of_le hk hasked.length_le
        exact hasked.tail (.sendNow hk' (Or.inl hS) _)

theorem Confined.receiveVerdict (hp : P p) (verdict : Verdict) :
    Confined S P 0 n (n.receiveVerdict k p verdict) := by
  unfold Node.receiveVerdict
  cases verdict with
  | valid =>
    simp only
    split
    · exact (Confined.alter (f := (·.dropKeyRequest p.peer)) (fun _ => rfl) n k).tail
        (.authenticate hp (Or.inl hS))
    · exact .refl n
  | invalid => exact .stop hk hS false
  | error => exact .stop hk hS false

theorem Confined.answerVerify : Confined S P 0 n (n.answerVerify k pair stanza) := by
  unfold Node.answerVerify
  split
  · exact .failStream hk hS _ false
  · exact .sendNow hk (Or.inl hS) _

omit hk hS in
/-- A verdict is passed on over an incoming link of the pair. -/
theorem Confined.relayVerdict (hp : P p) (hlinks : ∀ t ∈ n.incomingKeys p, t < n.sessions.length)
    (verdict : Verdict) : Confined S P 0 n (n.relayVerdict k p stanza verdict) := by
  unfold Node.relayVerdict
  split
  · exact .refl n
  · rename_i id hid
    split
    · exact .refl n
    · let dropped := n.alter k (·.dropVerifyRequest p.peer id)
      have hdropped : Confined S P 0 n dropped :=
        .alter (f := (·.dropVerifyRequest p.peer id)) (fun _ => rfl) n k
      have hlength : dropped.sessions.length = n.sessions.length := length_sessions_alter n k _
      by_cases hvalid : verdict = .valid
      · simp only [hvalid, decide_true, if_true, authenticateByStream]
        cases ht : dropped.incomingByStream? p id with
        | none => exact hdropped
        | some t =>
          have hlink : t ∈ dropped.incomingKeys p := List.mem_of_find?_eq_some ht
          have hauthenticated : Confined S P 0 n (dropped.authenticate p t) :=
            hdropped.tail (.authenticate hp (Or.inr (mem_linkKeys_of_mem_incomingKeys hlink)))
          have hlink' : t ∈ (dropped.authenticate p t).incomingKeys p := by
            rw [Node.authenticate, incomingKeys, registry_flushPair]
            exact mem_incomingKeys_trust hlink
          have ht' : t < (dropped.authenticate p t).sessions.length :=
            Nat.lt_of_lt_of_le (hlinks t hlink) hauthenticated.length_le
          exact hauthenticated.tail
            (.sendNow ht' (Or.inr ⟨p, hp, mem_linkKeys_of_mem_incomingKeys hlink'⟩) _)
      · simp only [hvalid, decide_false, Bool.false_eq_true, if_false]
        cases ht : dropped.incomingByStream? p id with
        | none => exact hdropped
        | some t =>
          have hlink : t ∈ dropped.incomingKeys p := List.mem_of_find?_eq_some ht
          have ht' : t < dropped.sessions.length := by
            rw [hlength]
            exact hlinks t hlink
          exact hdropped.tail
            (.sendNow ht' (Or.inr ⟨p, hp, mem_linkKeys_of_mem_incomingKeys hlink⟩) _)

theorem Confined.receiveVerifyReply (hp : P p)
    (hlinks : ∀ t ∈ n.incomingKeys p, t < n.sessions.length) (verdict : Verdict) :
    Confined S P 0 n (n.receiveVerifyReply k p stanza verdict) := by
  have hrelayed : Confined S P 0 n (n.relayVerdict k p stanza verdict) :=
    .relayVerdict stanza hp hlinks verdict
  unfold Node.receiveVerifyReply
  simp only
  split
  · exact hrelayed.tail (.stop (Nat.lt_of_lt_of_le hk hrelayed.length_le) hS false)
  · exact hrelayed

theorem Confined.dispatchDialback (hn : n.HasCanonicalEntries) (hp : P p)
    (hlinks : ∀ t ∈ n.incomingKeys p, t < n.sessions.length)
    (hcheck : DomainPair.checked pair.own pair.peer n.directory.isServed = .ok p)
    (kind : DialbackKind) : Confined S P 1 n (n.dispatchDialback k kind pair p stanza) := by
  unfold Node.dispatchDialback
  cases kind with
  | result =>
    cases stanza.attr? "type" with
    | none => exact .receiveKey hk hS stanza hn hp hcheck
    | some text => exact (Confined.receiveVerdict hk hS hp _).weaken (Nat.zero_le 1)
  | verify =>
    cases stanza.attr? "type" with
    | none => exact (Confined.answerVerify hk hS stanza).weaken (Nat.zero_le 1)
    | some text =>
      exact (Confined.receiveVerifyReply hk hS stanza hp hlinks _).weaken (Nat.zero_le 1)

omit hk [Transport τ] in
theorem Confined.takeIn (hp : P p) (spelled : DomainPair) :
    Confined S P 0 n (n.takeIn k spelled p) := by
  have hentry : Confined S P 0 n ((n.alter k (·.adoptPair spelled)).withEntry p) :=
    (Confined.alter (f := (·.adoptPair spelled)) (fun _ => rfl) n k).tail (.withEntry _ hp)
  unfold Node.takeIn
  simp only
  split
  · rename_i hrole
    have hjoined : ((n.alter k (·.adoptPair spelled)).withEntry p).addIncoming p k =
        ((n.alter k (·.adoptPair spelled)).withEntry p).addLink p k := by
      simp only [Node.addLink, hrole]
    rw [hjoined]
    exact hentry.tail (.addLink _ hp (Or.inl hS))
  · exact hentry

end Dialback

end Session

section Header

variable {k : SessionKey} (hk : k < n.sessions.length) (hS : S k)

include hk hS

theorem Confined.chain_streamOpened (settings : Settings) (header : StreamHeader) :
    Confined S P 0 n ((Chain.standard settings).streamOpened n k header).2 := by
  rw [standard_eq]
  simp only [Chain.streamOpened, Processor.streamError, Processor.dialback]
  cases (n.session k).role with
  | inbound => exact .setPhase n k .awaitingKey
  | outbound =>
    simp only
    split
    · exact .setPhase n k .awaitingFeatures
    · exact .presentKey hk hS

/-- What a node does about the header of a peer stays within the session. -/
theorem Confined.streamOpened {conn : ConnId} (hfind : n.find? conn = some k) (settings : Settings)
    (header : StreamHeader) :
    Confined S P 0 n (n.streamOpened (Chain.standard settings) conn header).2 := by
  cases hrole : (n.session k).role with
  | inbound =>
    have hanswer : Confined S P 0 n
        (n.answerHeader (Chain.standard settings) k header).2.2 := by
      obtain heq | ⟨pair, -, heq⟩ := answerHeader_cases (n := n) (Chain.standard settings) k header
      · rw [heq]
        exact .refl n
      · rw [heq]
        exact .alter (f := (·.setPair pair)) (fun _ => rfl) n k
    simp only [Node.streamOpened, hfind, hrole]
    rcases hresult : n.answerHeader (Chain.standard settings) k header with ⟨text, error, m⟩
    rw [hresult] at hanswer
    have hk' : k < m.sessions.length := Nat.lt_of_lt_of_le hk hanswer.length_le
    cases error with
    | some e => exact hanswer.tail (.stop hk' hS false)
    | none => exact hanswer.tail (.chain_streamOpened hk' hS settings header)
  | outbound =>
    simp only [Node.streamOpened, hfind, hrole]
    cases header.id with
    | none => exact .chain_streamOpened hk hS settings header
    | some id =>
      exact (Confined.alter (f := (·.setPeerStreamId id)) (fun _ => rfl) n k).tail
        (.chain_streamOpened (by simpa using hk) hS settings header)

end Header

section Receive

variable {conn : ConnId} {k : SessionKey} {stanza : Element} (hn : n.WellFormed)
  (hfind : n.find? conn = some k) (hS : S k) (hP : ∀ p, n.subject? k stanza = some p → P p)

include hn hfind hS hP

theorem Confined.receiveDialback (hbound : n.Bound) {kind : DialbackKind}
    (hkind : DialbackKind.of? stanza = some kind) :
    Confined S P 1 n (n.receiveDialback k kind stanza) := by
  obtain ⟨hk, hconn⟩ := hn.live conn k hfind
  cases hnamed : n.directory.pairNamed? stanza with
  | none =>
    have hadopt : Confined S P 0 n (n.alter k (·.adoptPair stanza.spelled)) :=
      .alter (f := (·.adoptPair stanza.spelled)) (fun _ => rfl) n k
    obtain ⟨condition, heq | heq⟩ := receiveDialback_of_unnamed (k := k) hn.entries hnamed kind
    · rw [heq]
      exact (Confined.failStream hk hS condition false).weaken (Nat.zero_le 1)
    · rw [heq]
      refine (hadopt.tail (.failStream ?_ hS condition false)).weaken (Nat.zero_le 1)
      rwa [length_sessions_alter]
  | some p =>
    have hp : P p := hP p ((subject?_of_dialback hkind).trans hnamed)
    obtain ⟨-, -, hcheck⟩ := checked_of_pairNamed? hnamed
    have htaken : Confined S P 0 n (n.takeIn k stanza.spelled p) := .takeIn hS hp _
    have hmoves : Moves (.heard k stanza) n (n.takeIn k stanza.spelled p) :=
      moves_takeIn (by rw [hconn, hfind]) (by rw [hkind]; rfl) hnamed _
    have hlinks : ∀ t ∈ (n.takeIn k stanza.spelled p).incomingKeys p,
        t < (n.takeIn k stanza.spelled p).sessions.length := fun t ht =>
      lt_length_of_inbound ((hmoves.bound hbound).incoming p t ht)
    rw [receiveDialback_eq hn.entries hnamed]
    refine htaken.tail (.dispatchDialback (by simpa using hk) hS stanza
      (hmoves.hasCanonicalEntries hn.entries) hp hlinks ?_ kind)
    rwa [directory_takeIn]

/-- What a node does about what it hears on a session stays within this session and the pair
that is concerned. -/
theorem Confined.receive (hbound : n.Bound) (settings : Settings) :
    Confined S P 1 n (n.step (Chain.standard settings) (.receive conn stanza)) := by
  obtain ⟨hk, -⟩ := hn.live conn k hfind
  cases hkind : DialbackKind.of? stanza with
  | some kind =>
    rw [step_receive_of_dialback settings hfind hkind]
    exact .receiveDialback hn hfind hS hP hbound hkind
  | none =>
    rw [step_receive_other settings hfind hkind]
    split
    · exact (Confined.stop hk hS false).weaken (Nat.zero_le 1)
    · split
      · rename_i hfeatures
        exact (Confined.receiveFeatures hk hS hn.entries settings.workaround hfeatures.2 hP).weaken
          (Nat.zero_le 1)
      · exact (Confined.refl n).weaken (Nat.zero_le 1)

end Receive

end Federation.Node
