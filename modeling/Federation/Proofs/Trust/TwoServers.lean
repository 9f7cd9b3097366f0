import Federation.Proofs.Node.Questions
import Federation.Proofs.Trust.Provenance

/-!
Two servers and the lines between them. Every connection that the second opens for a domain of the
first ends there, at a connection that the first accepted, and what either end hears on it is what
the other end has written, in order. Anything may arrive on all other connections.
-/

namespace Federation

variable {α β : Type} [Transport α] [Transport β]

/-- The histories of two servers that run side by side, and the lines between them, each from a
connection of the second to one of the first. -/
inductive SideBySide (first : Setup α) (second : Setup β) :
    List (Occurrence α) → List (Occurrence β) → List (ConnId × ConnId) → Prop
  | start : SideBySide first second [] [] []
  | attach {pastA : List (Occurrence α)} {pastB : List (Occurrence β)}
      {lines : List (ConnId × ConnId)} (h : SideBySide first second pastA pastB lines)
      (r x : ConnId) (k : SessionKey) (hfind : (first.after pastA).find? x = some k)
      (hrole : ((first.after pastA).session k).role = .inbound) (hfresh : heardOn pastA x = []) :
      SideBySide first second pastA pastB (lines ++ [(r, x)])
  | first {pastA : List (Occurrence α)} {pastB : List (Occurrence β)}
      {lines : List (ConnId × ConnId)} (h : SideBySide first second pastA pastB lines)
      (o : Occurrence α)
      (hheard : ∀ x e, o = .event (.receive x e) → ∀ r, (r, x) ∈ lines →
        heardOn (pastA ++ [o]) x <+: (second.after pastB).writtenOn r) :
      SideBySide first second (pastA ++ [o]) pastB lines
  | second {pastA : List (Occurrence α)} {pastB : List (Occurrence β)}
      {lines : List (ConnId × ConnId)} (h : SideBySide first second pastA pastB lines)
      (o : Occurrence β)
      (hheard : ∀ r e, o = .event (.receive r e) → ∀ x, (r, x) ∈ lines →
        heardOn (pastB ++ [o]) r <+: (first.after pastA).writtenOn x)
      (hattached : ∀ r e, o = .event (.receive r e) → ∀ cid,
        Effect.connect cid (some r) ∈ (second.after pastB).log →
        first.directory.isServed cid.peer → ∃ x, (r, x) ∈ lines) :
      SideBySide first second pastA (pastB ++ [o]) lines

/-- A connection on which a question is outstanding was opened for a pair with the peer that was
asked. -/
theorem Setup.exists_connect_of_hasVerifyRequest (setup : Setup β) {past : List (Occurrence β)}
    {conn : ConnId} {r : SessionKey} {p : DomainPair} {id : String}
    (hfind : (setup.after past).find? conn = some r)
    (hp : p.IsCanonical setup.directory.isServed)
    (hrequest : ((setup.after past).session r).hasVerifyRequest p.peer id) :
    ∃ cid, cid.peer = p.peer ∧ Effect.connect cid (some conn) ∈ (setup.after past).log := by
  have hbound := setup.bound_after past
  rw [← setup.directory_after past] at hp
  obtain ⟨houtbound, cid, hcid, hpeer⟩ := hbound.peer_of_hasVerifyRequest hp hrequest
  obtain ⟨hr, hconn⟩ := (setup.wellFormed_after past).live conn r hfind
  obtain ⟨opened, hopened, -, hlogged⟩ := hbound.opened r hr houtbound
  have hsame : cid = opened := by simpa [hcid] using hopened
  exact ⟨cid, hpeer, by rwa [hsame, ← hconn]⟩

namespace SideBySide

variable {first : Setup α} {second : Setup β} {pastA : List (Occurrence α)}
  {pastB : List (Occurrence β)} {lines : List (ConnId × ConnId)}

/-- The first server has heard on a line only what the second has written there. -/
theorem heardOn_prefix (h : SideBySide first second pastA pastB lines) {r x : ConnId}
    (hline : (r, x) ∈ lines) : heardOn pastA x <+: (second.after pastB).writtenOn r := by
  induction h with
  | start => cases hline
  | attach h r' x' k hfind hrole hfresh ih =>
    rcases List.mem_append.mp hline with hold | hnew
    · exact ih hold
    · cases List.mem_singleton.mp hnew
      rw [hfresh]
      exact List.nil_prefix
  | first h o hheard ih =>
    rcases heardOn_snoc _ o x with hsame | ⟨e, heq, -⟩
    · rw [hsame]
      exact ih hline
    · exact hheard x e heq r hline
  | second h o hheard hattached ih => exact (ih hline).trans (second.writtenOn_snoc _ o r)

/-- A line ends at a connection that the first server accepted. -/
theorem exists_inbound (h : SideBySide first second pastA pastB lines) {r x : ConnId}
    (hline : (r, x) ∈ lines) :
    ∃ k < (first.after pastA).sessions.length, ((first.after pastA).session k).conn = x ∧
      ((first.after pastA).session k).role = .inbound := by
  induction h with
  | start => cases hline
  | attach h r' x' k hfind hrole hfresh ih =>
    rcases List.mem_append.mp hline with hold | hnew
    · exact ih hold
    · cases List.mem_singleton.mp hnew
      obtain ⟨hk, hconn⟩ := (first.wellFormed_after _).live x k hfind
      exact ⟨k, hk, hconn, hrole⟩
  | first h o hheard ih =>
    obtain ⟨k, hk, hconn, hrole⟩ := ih hline
    obtain ⟨hlt, hidentity⟩ := first.identity_append _ [o] hk
    exact ⟨k, hlt, (Session.conn_eq hidentity).trans hconn,
      (Session.role_eq hidentity).trans hrole⟩
  | second h o hheard hattached ih => exact ih hline

/-- When the second server heard something, the first had come a part of its way. -/
theorem exists_before (h : SideBySide first second pastA pastB lines)
    {before rest : List (Occurrence β)} {o : Occurrence β} (heq : pastB = before ++ o :: rest) :
    ∃ early late lines', pastA = early ++ late ∧ lines' ⊆ lines ∧
      SideBySide first second early before lines' ∧
      (∀ r e, o = .event (.receive r e) → ∀ x, (r, x) ∈ lines' →
        heardOn (before ++ [o]) r <+: (first.after early).writtenOn x) ∧
      ∀ r e, o = .event (.receive r e) → ∀ cid,
        Effect.connect cid (some r) ∈ (second.after before).log →
        first.directory.isServed cid.peer → ∃ x, (r, x) ∈ lines' := by
  induction h generalizing rest with
  | start => simp at heq
  | attach h r x k hfind hrole hfresh ih =>
    obtain ⟨early, late, lines', hsplit, hlines, hrest⟩ := ih heq
    exact ⟨early, late, lines', hsplit, List.subset_append_of_subset_left _ hlines, hrest⟩
  | first h o' hheard ih =>
    obtain ⟨early, late, lines', hsplit, hrest⟩ := ih heq
    exact ⟨early, late ++ [o'], lines', by rw [hsplit, List.append_assoc], hrest⟩
  | @second pastA pastB lines h o' hheard hattached ih =>
    rcases List.eq_nil_or_concat rest with hnil | ⟨rest', last, hrest⟩
    · subst hnil
      obtain ⟨hbefore, ho⟩ := List.append_inj' heq rfl
      cases ho
      subst hbefore
      exact ⟨pastA, [], lines, (List.append_nil _).symm, List.Subset.refl _, h, hheard, hattached⟩
    · subst hrest
      have hcut : pastB ++ [o'] = (before ++ o :: rest') ++ [last] := by simpa using heq
      exact ih (List.append_inj' hcut rfl).1

/-- A verdict that the second server hears from the first is the answer to a question that the
second has written before, and that the first has heard on the line. -/
theorem exists_answered (h : SideBySide first second pastA pastB lines)
    (hconns : ((first.after pastA).sessions.map (·.conn)).Nodup)
    {before rest : List (Occurrence β)} {r : ConnId} {answer : Element} {cid : DomainPair}
    {text : String} (heq : pastB = before ++ .event (.receive r answer) :: rest)
    (hlog : Effect.connect cid (some r) ∈ (second.after before).log)
    (hserved : first.directory.isServed cid.peer)
    (hkind : DialbackKind.of? answer = some .verify) (htype : answer.attr? "type" = some text) :
    ∃ x, (r, x) ∈ lines ∧ ∃ question ∈ (second.after before).writtenOn r,
      question ∈ heardOn pastA x ∧ first.directory.Answers question answer := by
  obtain ⟨early, late, lines', hsplit, hlines, hside, hheard, hattached⟩ := h.exists_before heq
  obtain ⟨x, hline⟩ := hattached r answer rfl cid hlog hserved
  have hanswer : answer ∈ (first.after early).writtenOn x :=
    (hheard r answer rfl x hline).subset (mem_heardOn (by simp))
  have hinbound : ∀ k < (first.after early).sessions.length,
      ((first.after early).session k).conn = x →
      ((first.after early).session k).role = .inbound := by
    intro k hk hconn
    obtain ⟨j, hj, hconn', hrole⟩ := hside.exists_inbound hline
    obtain ⟨hlt, hidentity⟩ := first.identity_append early late hk
    obtain ⟨hlt', hidentity'⟩ := first.identity_append early late hj
    rw [← hsplit] at hlt hidentity hlt' hidentity'
    have hsame : k = j := by
      refine Node.eq_of_nodup hconns hlt hlt' ?_
      rw [Session.conn_eq hidentity, Session.conn_eq hidentity', hconn, hconn']
    rw [hsame]
    exact hrole
  obtain ⟨question, hquestion, hanswers⟩ := first.exists_question hinbound hanswer hkind htype
  refine ⟨x, hlines hline, question, (hside.heardOn_prefix hline).subset hquestion, ?_, hanswers⟩
  rw [hsplit, heardOn, List.filterMap_append]
  exact List.mem_append_left _ hquestion

/-- A caller of the second server sent a question about a pair and a stream itself. It was written
then on a connection that was opened for the peer of the pair and that ends at the first server,
which heard it there and accepts the key in it. -/
inductive AskedByCaller (first : Setup α) (second : Setup β) (pastA : List (Occurrence α))
    (pastB : List (Occurrence β)) (lines : List (ConnId × ConnId)) (p : DomainPair) (id : String) :
    Prop
  | intro (before rest : List (Occurrence β)) (pair cid asked : DomainPair) (question : Element)
      (r x : ConnId) (recipient sender : String)
      (hpast : pastB = before ++ .event (.send pair question) :: rest)
      (hwritten : (second.after (before ++ [.event (.send pair question)])).writtenOn r =
        (second.after before).writtenOn r ++ [question])
      (hopened : Effect.connect cid (some r) ∈ (second.after pastB).log) (hpeer : cid.peer = p.peer)
      (hline : (r, x) ∈ lines) (hheard : question ∈ heardOn pastA x)
      (hkind : DialbackKind.of? question = some .verify) (htype : question.attr? "type" = none)
      (hto : question.attr? "to" = some recipient) (hfrom : question.attr? "from" = some sender)
      (hid : question.attr? "id" = some id)
      (hasked : asked = DomainPair.ofAddresses recipient sender)
      (hpair : DomainPair.checked asked.peer asked.own second.directory.isServed = .ok p)
      (haccepts : first.directory.acceptsKey asked id (question.cdata.getD ""))

/-- A peer's own connection to the second server is trusted for a domain of the first only if the
key of that domain was presented on it, or if a caller of the second server put a question about the
pair and the stream to the first on its own, with a key that the first accepts. -/
theorem exists_right_key (h : SideBySide first second pastA pastB lines)
    (hconns : ((first.after pastA).sessions.map (·.conn)).Nodup)
    (hids : ((second.after pastB).sessions.map (·.streamId)).Nodup)
    (hcalls : ∀ pair id key, Occurrence.event (.requestVerification pair id key) ∉ pastB)
    {s : SessionKey} {p : DomainPair} (hserved : first.directory.isServed p.peer)
    (hrole : ((second.after pastB).session s).role = .inbound)
    (htrusted : ((second.after pastB).session s).isTrustedFor p) :
    (∃ before event rest presented secret, pastB = before ++ .event event :: rest ∧
      (second.after before).cause event = .heard s presented ∧
      DialbackKind.of? presented = some .result ∧ presented.attr? "type" = none ∧
      second.directory.pairNamed? presented = some p ∧
      first.directory.secretFor p.peer = .ok secret ∧
      Text.trim (presented.cdata.getD "") =
        Key.derive p.peer p.own secret ((second.after pastB).session s).streamId) ∨
    AskedByCaller first second pastA pastB lines p ((second.after pastB).session s).streamId := by
  obtain ⟨before, event, rest, r, valid, heq, hs, hp, hcause, hkind, htype, hid, hnamed, hrequest,
    -⟩ := second.exists_relaying hrole htrusted
  obtain ⟨conn, rfl, hfind⟩ := Node.exists_of_cause_eq_heard hcause
  obtain ⟨cid, hpeer, hlog⟩ := second.exists_connect_of_hasVerifyRequest hfind hp hrequest
  rw [← hpeer] at hserved
  obtain ⟨x, hline, question, hquestion, hheard, hanswers⟩ :=
    h.exists_answered hconns heq hlog hserved hkind htype
  obtain ⟨recipient, sender, asked, hasked, hverify, huntyped, hto, hfrom, hstream, haccepts,
    hanswer⟩ := hanswers.exists_accepted htype hid
  rcases second.exists_asking_or_send hquestion hverify huntyped with
    ⟨earlier, asking, later, q, id, key, hearlier, hasks, hrequest⟩ |
    ⟨earlier, pair, later, hearlier, hwritten⟩
  · -- The question was put for a key that was presented: the answer is about that key.
    left
    have hq := hasks.concerns.isCanonical
    rw [second.directory_after earlier] at hq
    rw [hrequest] at hanswers
    have hvalid := hanswers.eq_verifyReply hq
    rw [hvalid, second.directory.pairNamed?_verifyReply hq] at hnamed
    cases hnamed
    rw [hvalid] at htype
    obtain ⟨secret, hsecret, hright⟩ :=
      Directory.acceptsKey_iff.mp (Stanza.eq_true_of_type_verifyReply htype)
    rw [hrequest, Stanza.attr?_verifyRequest] at hstream
    have hsame : id = ((second.after pastB).session s).streamId := by simpa using hstream
    subst hsame
    have hoccurred : pastB =
        earlier ++ .event asking :: (later ++ .event (.receive conn valid) :: rest) := by
      rw [heq, hearlier]
      simp
    obtain ⟨presented, hasking, hresult, huntyped', hnamed', hkey, -⟩ :=
      second.exists_presented hoccurred hcalls hids hs hasks
    rw [← hkey, Text.trim_trim] at hright
    exact ⟨earlier, asking, _, presented, secret, hoccurred, hasking, hresult, huntyped', hnamed',
      hsecret, hright⟩
  · right
    have hopened : Effect.connect cid (some conn) ∈ (second.after pastB).log := by
      rw [heq]
      exact (second.log_append before _).subset hlog
    have hoccurred : pastB =
        earlier ++ .event (.send pair question) ::
          (later ++ .event (.receive conn valid) :: rest) := by
      rw [heq, hearlier]
      simp
    rw [hanswer] at hnamed
    exact .intro earlier _ pair cid asked question conn x recipient sender hoccurred hwritten
      hopened hpeer hline hheard hverify huntyped hto hfrom hstream hasked
      (Directory.checked_of_pairNamed?_verifyReply hasked hnamed) haccepts

theorem second_call (h : SideBySide first second pastA pastB lines) (event : Event)
    (hcall : ∀ r e, event ≠ .receive r e) :
    SideBySide first second pastA (pastB ++ [.event event]) lines :=
  .second h _ (fun r e ho => absurd (Occurrence.event.inj ho) (hcall r e))
    (fun r e ho => absurd (Occurrence.event.inj ho) (hcall r e))

/-- On a connection that the second server did not open, it may hear anything. -/
theorem second_elsewhere (h : SideBySide first second pastA pastB lines) (r : ConnId) (e : Element)
    (hline : ∀ x, (r, x) ∉ lines)
    (hopened : ∀ cid, Effect.connect cid (some r) ∉ (second.after pastB).log) :
    SideBySide first second pastA (pastB ++ [.event (.receive r e)]) lines := by
  refine .second h _ ?_ ?_
  · rintro _ _ ⟨⟩ x hx
    exact absurd hx (hline x)
  · rintro _ _ ⟨⟩ cid hlog
    exact absurd hlog (hopened cid)

theorem second_line {r x : ConnId} (h : SideBySide first second pastA pastB [(r, x)]) (e : Element)
    (hheard : heardOn (pastB ++ [.event (.receive r e)]) r <+: (first.after pastA).writtenOn x) :
    SideBySide first second pastA (pastB ++ [.event (.receive r e)]) [(r, x)] := by
  refine .second h _ ?_ ?_
  · rintro _ _ ⟨⟩ x' hx
    cases List.mem_singleton.mp hx
    exact hheard
  · rintro _ _ ⟨⟩ cid hlog hserved
    exact ⟨x, List.mem_singleton_self _⟩

theorem first_elsewhere (h : SideBySide first second pastA pastB lines) (event : Event)
    (hother : ∀ x e, event = .receive x e → ∀ r, (r, x) ∉ lines) :
    SideBySide first second (pastA ++ [.event event]) pastB lines :=
  .first h _ fun x e ho r hr => absurd hr (hother x e (Occurrence.event.inj ho) r)

theorem first_line {r x : ConnId} (h : SideBySide first second pastA pastB [(r, x)]) (e : Element)
    (hheard : heardOn (pastA ++ [.event (.receive x e)]) x <+: (second.after pastB).writtenOn r) :
    SideBySide first second (pastA ++ [.event (.receive x e)]) pastB [(r, x)] := by
  refine .first h _ ?_
  rintro _ _ ⟨⟩ r' hr
  cases List.mem_singleton.mp hr
  exact hheard

open Setup

def authority : Setup Simulated where
  settings := {}
  directory := .exact [{ name := "a.example", secret := some "secret" }]
  transport := {}
  issued := 100

def firstStream : String := "00000000000040008000000000000001"

/-- What `authority` derives as the key for that stream. -/
def rightKey : String :=
  "e901ce4cf4b8f582809757d8590083ef20f59cbdb5a2127eb4489a5379af16e2"

def rightPresented : List (Occurrence Simulated) :=
  [.event (.accept ⟨2⟩ "192.0.2.1"),
    .event (.receive ⟨2⟩ (Stanza.key "a.example" "b.example" rightKey)),
    .event (.streamOpened ⟨1000⟩ { id := some "x" })]

def rightAsked : List (Occurrence Simulated) :=
  [.event (.accept ⟨1⟩ "192.0.2.2"),
    .event (.receive ⟨1⟩ (Stanza.verifyRequest "b.example" "a.example" firstStream rightKey))]

def foundRight : Occurrence Simulated :=
  .event (.receive ⟨1000⟩ (Stanza.verifyReply "a.example" "b.example" firstStream true))

theorem authority_accept :
    (authority.after [.event (.accept ⟨1⟩ "192.0.2.2")]).find? ⟨1⟩ = some 0 ∧
      ((authority.after [.event (.accept ⟨1⟩ "192.0.2.2")]).session 0).role = .inbound := by
  rw [after_eq_foldl]
  decide +kernel

theorem authority_rightAsked :
    (authority.after rightAsked).writtenOn ⟨1⟩ =
        [Stanza.verifyReply "a.example" "b.example" firstStream true] ∧
      ((authority.after rightAsked).sessions.map (·.conn)).Nodup := by
  rw [after_eq_foldl]
  decide +kernel

theorem served_foundRight :
    (served.after [.event (.accept ⟨2⟩ "192.0.2.1")]).log = [] ∧
      (served.after rightPresented).writtenOn ⟨1000⟩ =
        [Stanza.verifyRequest "b.example" "a.example" firstStream rightKey] ∧
      ((served.after (rightPresented ++ [foundRight])).sessions.map (·.streamId)).Nodup ∧
      ((served.after (rightPresented ++ [foundRight])).session 0).role = .inbound ∧
      ((served.after (rightPresented ++ [foundRight])).session 0).streamId = firstStream ∧
      ((served.after (rightPresented ++ [foundRight])).session 0).isTrustedFor
        ⟨"b.example", "a.example"⟩ := by
  rw [after_eq_foldl, after_eq_foldl, after_eq_foldl]
  decide +kernel

theorem sideBySide_foundRight :
    SideBySide authority served rightAsked (rightPresented ++ [foundRight]) [(⟨1000⟩, ⟨1⟩)] := by
  obtain ⟨hfind, hrole⟩ := authority_accept
  obtain ⟨hunopened, hasked, -⟩ := served_foundRight
  obtain ⟨hanswered, -⟩ := authority_rightAsked
  have haccepted : SideBySide authority served [.event (.accept ⟨1⟩ "192.0.2.2")]
      [.event (.accept ⟨2⟩ "192.0.2.1")] [] :=
    (SideBySide.start.first_elsewhere _ fun _ _ h => by cases h).second_call _
      fun _ _ h => by cases h
  have hopened := haccepted.second_elsewhere ⟨2⟩
    (Stanza.key "a.example" "b.example" rightKey) (by simp) (by simp [hunopened])
  have hpresented : SideBySide authority served [.event (.accept ⟨1⟩ "192.0.2.2")] rightPresented
      [(⟨1000⟩, ⟨1⟩)] :=
    (hopened.attach ⟨1000⟩ ⟨1⟩ 0 hfind hrole rfl).second_call _ fun _ _ h => by cases h
  have hheard : SideBySide authority served rightAsked rightPresented [(⟨1000⟩, ⟨1⟩)] := by
    refine hpresented.first_line _ ?_
    rw [hasked]
    exact List.prefix_refl _
  refine hheard.second_line _ ?_
  rw [hanswered]
  exact List.prefix_refl _

/-- No caller puts a question, so the key that was presented is the right one. -/
theorem exists_right_key_of_foundRight :
    ∃ before event rest presented secret,
      rightPresented ++ [foundRight] = before ++ .event event :: rest ∧
      (served.after before).cause event = .heard 0 presented ∧
      authority.directory.secretFor "a.example" = .ok secret ∧
      Text.trim (presented.cdata.getD "") =
        Key.derive "a.example" "b.example" secret firstStream := by
  have hcalls : ∀ pair id key,
      Occurrence.event (.requestVerification pair id key) ∉ rightPresented ++ [foundRight] := by
    intro pair id key h
    simp [rightPresented, foundRight] at h
  obtain ⟨-, hconns⟩ := authority_rightAsked
  obtain ⟨-, -, hids, hrole, hstream, htrusted⟩ := served_foundRight
  rcases sideBySide_foundRight.exists_right_key hconns hids hcalls (by decide +kernel) hrole
    htrusted with ⟨before, event, rest, presented, secret, heq, hheard, -, -, -, hsecret, hkey⟩ |
    ⟨before, rest, pair, _, _, question, _, _, _, _, hpast⟩
  · rw [hstream] at hkey
    exact ⟨before, event, rest, presented, secret, heq, hheard, hsecret, hkey⟩
  · have hsend : Occurrence.event (.send pair question) ∈ rightPresented ++ [foundRight] := by
      simp [hpast]
    simp [rightPresented, foundRight] at hsend

def ownKey : String :=
  "f8d47f14c7970d064d52df03dd9f0095ae20b1a2494f48d89a956b04ca8c07ce"

def ownKeySent : List (Occurrence Simulated) :=
  [.event (.accept ⟨2⟩ "192.0.2.1"), .event (.openConnection ⟨"b.example", "a.example"⟩ none),
    .event (.streamOpened ⟨1000⟩ { id := some "00000000000040008000000000000065" })]

def ownKeyVerified : List (Occurrence Simulated) :=
  [.event (.accept ⟨1⟩ "192.0.2.2"),
    .event (.receive ⟨1⟩ (Stanza.key "b.example" "a.example" ownKey)),
    .event (.streamOpened ⟨1000⟩ { id := some "y" }),
    .event (.receive ⟨1000⟩
      (Stanza.verifyReply "b.example" "a.example" "00000000000040008000000000000065" true))]

def rightQuestion : Element :=
  Stanza.verifyRequest "b.example" "a.example" firstStream rightKey

/-- On the connection that is trusted now a caller sends the question, and a peer presents
a forged key. -/
def forgedPresented : List (Occurrence Simulated) :=
  ownKeySent ++
    [.event (.receive ⟨1000⟩ (Stanza.resultReply "a.example" "b.example" .valid none)),
      .event (.send ⟨"b.example", "a.example"⟩ rightQuestion),
      .event (.receive ⟨2⟩ (Stanza.key "a.example" "b.example" "forged"))]

def questionAnswered : List (Occurrence Simulated) :=
  ownKeyVerified ++ [.event (.receive ⟨1⟩ rightQuestion)]

theorem authority_questionAnswered :
    (authority.after ownKeyVerified).writtenOn ⟨1⟩ =
        [Stanza.resultReply "a.example" "b.example" .valid none] ∧
      (authority.after questionAnswered).writtenOn ⟨1⟩ =
        [Stanza.resultReply "a.example" "b.example" .valid none,
          Stanza.verifyReply "a.example" "b.example" firstStream true] ∧
      (authority.after questionAnswered).sessions.map (·.conn) = [⟨1⟩, ⟨1000⟩] ∧
      (authority.after questionAnswered).sessions.map (·.streamId) =
        ["00000000000040008000000000000065", "00000000000040008000000000000066"] := by
  rw [after_eq_foldl, after_eq_foldl]
  decide +kernel

theorem served_forgedPresented :
    (served.after ownKeySent).writtenOn ⟨1000⟩ =
        [Stanza.key "b.example" "a.example" ownKey] ∧
      (served.after (forgedPresented.take 5)).log.all (fun
        | .connect _ conn => conn != some ⟨2⟩
        | _ => true) ∧
      [Stanza.key "b.example" "a.example" ownKey, rightQuestion] <+:
        (served.after forgedPresented).writtenOn ⟨1000⟩ ∧
      (served.after (forgedPresented ++ [foundRight])).sessions.map (·.conn) = [⟨2⟩, ⟨1000⟩] ∧
      (served.after (forgedPresented ++ [foundRight])).sessions.map (·.streamId) =
        [firstStream, "00000000000040008000000000000002"] ∧
      ((served.after (forgedPresented ++ [foundRight])).session 0).role = .inbound ∧
      ((served.after (forgedPresented ++ [foundRight])).session 0).isTrustedFor
        ⟨"b.example", "a.example"⟩ := by
  rw [after_eq_foldl, after_eq_foldl, after_eq_foldl, after_eq_foldl]
  decide +kernel

theorem sideBySide_forgedPresented :
    SideBySide authority served questionAnswered (forgedPresented ++ [foundRight])
      [(⟨1000⟩, ⟨1⟩)] := by
  obtain ⟨hfind, hrole⟩ := authority_accept
  obtain ⟨hverified, hanswered, -⟩ := authority_questionAnswered
  obtain ⟨hsent, hall, hasked, -⟩ := served_forgedPresented
  have hopened : ∀ cid,
      Effect.connect cid (some ⟨2⟩) ∉ (served.after (forgedPresented.take 5)).log := by
    intro cid hmem
    exact absurd (List.all_eq_true.mp hall _ hmem) (by simp)
  have haccepted : SideBySide authority served [.event (.accept ⟨1⟩ "192.0.2.2")]
      [.event (.accept ⟨2⟩ "192.0.2.1"),
        .event (.openConnection ⟨"b.example", "a.example"⟩ none)] [] :=
    ((SideBySide.start.first_elsewhere _ fun _ _ h => by cases h).second_call _
      fun _ _ h => by cases h).second_call _ fun _ _ h => by cases h
  have hown : SideBySide authority served [.event (.accept ⟨1⟩ "192.0.2.2")] ownKeySent
      [(⟨1000⟩, ⟨1⟩)] :=
    (haccepted.attach ⟨1000⟩ ⟨1⟩ 0 hfind hrole rfl).second_call _ fun _ _ h => by cases h
  have hpresented : SideBySide authority served (ownKeyVerified.take 2) ownKeySent
      [(⟨1000⟩, ⟨1⟩)] := by
    refine hown.first_line _ ?_
    rw [hsent]
    exact List.prefix_refl _
  have hvouched : SideBySide authority served ownKeyVerified ownKeySent [(⟨1000⟩, ⟨1⟩)] := by
    refine (hpresented.first_elsewhere _ fun _ _ h => by cases h).first_elsewhere _ ?_
    rintro _ _ ⟨⟩ r hr
    cases List.mem_singleton.mp hr
  have htrusted : SideBySide authority served ownKeyVerified (forgedPresented.take 4)
      [(⟨1000⟩, ⟨1⟩)] := by
    refine hvouched.second_line _ ?_
    rw [hverified]
    exact List.prefix_refl _
  have hforged : SideBySide authority served ownKeyVerified forgedPresented [(⟨1000⟩, ⟨1⟩)] :=
    (htrusted.second_call (.send ⟨"b.example", "a.example"⟩ rightQuestion)
      fun _ _ h => by cases h).second_elsewhere ⟨2⟩ _ (by simp) hopened
  have hquestion : SideBySide authority served questionAnswered forgedPresented
      [(⟨1000⟩, ⟨1⟩)] := hforged.first_line _ hasked
  refine hquestion.second_line _ ?_
  rw [hanswered]
  exact List.prefix_refl _

/-- A question that a caller sends itself can make a connection trusted on which only a forged key
was presented. -/
theorem exists_forged_key :
    SideBySide authority served questionAnswered (forgedPresented ++ [foundRight])
        [(⟨1000⟩, ⟨1⟩)] ∧
      ((authority.after questionAnswered).sessions.map (·.conn)).Nodup ∧
      ((served.after (forgedPresented ++ [foundRight])).sessions.map (·.conn)).Nodup ∧
      ((authority.after questionAnswered).sessions.map (·.streamId) ++
        (served.after (forgedPresented ++ [foundRight])).sessions.map (·.streamId)).Nodup ∧
      (∀ pair id key, Occurrence.event (.requestVerification pair id key) ∉
        forgedPresented ++ [foundRight]) ∧
      authority.directory.isServed "a.example" ∧ served.directory.isServed "b.example" ∧
      ¬ authority.directory.isServed "b.example" ∧
      ((served.after (forgedPresented ++ [foundRight])).session 0).role = .inbound ∧
      ((served.after (forgedPresented ++ [foundRight])).session 0).isTrustedFor
        ⟨"b.example", "a.example"⟩ ∧
      ¬ ∃ before event rest presented secret,
        forgedPresented ++ [foundRight] = before ++ .event event :: rest ∧
        (served.after before).cause event = .heard 0 presented ∧
        DialbackKind.of? presented = some .result ∧ presented.attr? "type" = none ∧
        served.directory.pairNamed? presented = some ⟨"b.example", "a.example"⟩ ∧
        authority.directory.secretFor "a.example" = .ok secret ∧
        Text.trim (presented.cdata.getD "") = Key.derive "a.example" "b.example" secret
          ((served.after (forgedPresented ++ [foundRight])).session 0).streamId := by
  obtain ⟨-, -, hconns, hids⟩ := authority_questionAnswered
  obtain ⟨-, -, -, hconns', hids', hrole, htrusted⟩ := served_forgedPresented
  refine ⟨sideBySide_forgedPresented, ?_, ?_, ?_, ?_, by decide +kernel, by decide +kernel,
    by decide +kernel, hrole, htrusted, ?_⟩
  · rw [hconns]
    decide
  · rw [hconns']
    decide
  · rw [hids, hids']
    decide
  · intro pair id key h
    simp [forgedPresented, ownKeySent, foundRight] at h
  · rintro ⟨before, event, rest, presented, secret, heq, hheard, -, huntyped, -, -, hkey⟩
    obtain ⟨conn, rfl, -⟩ := Node.exists_of_cause_eq_heard hheard
    have hmem : Occurrence.event (.receive conn presented) ∈ forgedPresented ++ [foundRight] := by
      simp [heq]
    have hlength := Key.length_derive "a.example" "b.example" secret
      ((served.after (forgedPresented ++ [foundRight])).session 0).streamId
    rw [← hkey] at hlength
    simp only [forgedPresented, ownKeySent, foundRight, List.cons_append, List.nil_append,
      List.mem_cons, List.not_mem_nil, Occurrence.event.injEq, Event.receive.injEq, reduceCtorEq,
      false_or, or_false] at hmem
    rcases hmem with ⟨-, rfl⟩ | ⟨-, rfl⟩ | ⟨-, rfl⟩
    · rw [Stanza.type_resultReply] at huntyped
      cases huntyped
    · exact absurd hlength (by decide +kernel)
    · rw [Stanza.type_verifyReply] at huntyped
      cases huntyped

end SideBySide

end Federation
