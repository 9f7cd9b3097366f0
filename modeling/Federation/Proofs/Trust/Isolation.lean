import Federation.Proofs.Node.Locality
import Federation.Proofs.Trust.ExactPair

/-!
Pairs do not disturb each other. What a peer sends on one connection is about one pair, and leaves
the entries of all others, their trust and their connections as they are.
-/

namespace Federation

theorem Session.relayFor_eq {s t : Session} (h : s.identity = t.identity) :
    s.relayFor = t.relayFor :=
  congrArg (·.2.2.2.1) h

/-- A connection that is opened for what is heard is a relay for the pair that is named. -/
theorem Node.Moves.relay_of_length_le {τ : Type} [Transport τ] {n m : Node τ} {s : SessionKey}
    {e : Element} (h : Node.Moves (.heard s e) n m) {r : SessionKey}
    (hnew : n.sessions.length ≤ r) (hr : r < m.sessions.length) :
    ∃ p, DialbackKind.of? e = some .result ∧ n.directory.pairNamed? e = some p ∧
      (m.session r).role = .outbound ∧ (m.session r).pair = some p ∧
      (m.session r).relayFor = some p.peer := by
  obtain ⟨n', m', hbefore, hmove, hlater, hnot, hlt⟩ :=
    h.exists_move (P := fun n => r < n.sessions.length) (Nat.not_lt.mpr hnew) hr
  have hle : n'.sessions.length ≤ r := Nat.not_lt.mp hnot
  have hlt' : r < m'.sessions.length := hlt
  rcases hmove.length_cases with heq | ⟨heq, ⟨conn, address, hcause, -⟩ |
    ⟨conn, p, relayFor, hopens, hsession, -⟩⟩
  · rw [heq] at hlt'
    exact absurd hlt' (Nat.not_lt.mpr hle)
  · cases hcause
  · rw [heq] at hlt'
    have hlast : r = n'.sessions.length := Nat.le_antisymm (Nat.le_of_lt_succ hlt') hle
    rw [← hlast] at hsession
    have hrole : (m'.session r).role = .outbound := by
      rw [hsession]
      rfl
    have hpair : (m'.session r).pair = some p := by
      rw [hsession]
      rfl
    have hkept := hlater.pair_eq hrole hpair
    have hrelay := Session.relayFor_eq (hlater.identity_eq hlt)
    cases hopens with
    | relay id key hasks =>
      cases hasks with
      | presented _ _ hk hkind htype hnamed =>
        rw [hbefore.directory_eq] at hnamed
        rw [hsession] at hrelay
        exact ⟨p, hkind, hnamed, hkept.1, hkept.2, hrelay⟩

namespace Setup

variable {τ : Type} [Transport τ] (setup : Setup τ)

/-- What a node hears on a session is about one pair at most. No entry of another pair changes, no
session becomes trusted for another pair, no other session that is there is torn down, at most one
is added, which is a relay for the pair, and all that is done to connections is done to that of the
session, to links of the pair and to the relay. -/
theorem receive_keeps_other_pairs (past : List (Occurrence τ)) {conn : ConnId} {s : SessionKey}
    (hfind : (setup.after past).find? conn = some s) (e : Element) :
    let n := setup.after past
    let m := setup.after (past ++ [.event (.receive conn e)])
    (∀ q, n.subject? s e ≠ some q → m.registry.get? q = n.registry.get? q ∧
      ∀ k, (m.session k).isTrustedFor q = (n.session k).isTrustedFor q) ∧
    (∀ k < n.sessions.length, k ≠ s → (m.session k).isClosing = (n.session k).isClosing) ∧
    n.sessions.length ≤ m.sessions.length ∧ m.sessions.length ≤ n.sessions.length + 1 ∧
    (∀ r, n.sessions.length ≤ r → r < m.sessions.length → ∃ p, n.subject? s e = some p ∧
      (m.session r).role = .outbound ∧ (m.session r).pair = some p ∧
      (m.session r).relayFor = some p.peer) ∧
    ∃ added, m.log = n.log ++ added ∧ ∀ effect ∈ added,
      Node.Within (· = s) (fun q => n.subject? s e = some q) n m effect := by
  intro n m
  have hm : m = n.step setup.chain (.receive conn e) := setup.after_snoc past _
  have hconfined : Node.Confined (· = s) (fun q => n.subject? s e = some q) 1 n m := by
    rw [hm]
    exact Node.Confined.receive (S := (· = s)) (setup.wellFormed_after past) hfind rfl
      (fun _ hp => hp) (setup.bound_after past) setup.settings
  have hmoves : Node.Moves (.heard s e) n m := by
    have hevent := setup.moves_event past (.receive conn e)
    simp only [Node.cause, hfind] at hevent
    rw [hm]
    exact hevent
  refine ⟨?_, hconfined.closing, hconfined.length_le, hconfined.length_fresh, ?_, hconfined.log⟩
  · intro q hq
    exact ⟨hconfined.entries q hq, hconfined.trusted q hq⟩
  · intro r hnew hr
    obtain ⟨p, hkind, hnamed, hrelay⟩ := hmoves.relay_of_length_le hnew hr
    exact ⟨p, (Node.subject?_of_dialback hkind).trans hnamed, hrelay⟩

/-- A peer presents a key for one pair while a key of ours for another pair is outstanding. -/
theorem receive_keeps_other_pairs_of_key :
    let q : DomainPair := ⟨"c.example", "a.example"⟩
    let past := keySent q ++ [.event (.accept ⟨1⟩ "192.0.2.1")]
    let n := servedTwo.after past
    let m := servedTwo.after
      (past ++ [.event (.receive ⟨1⟩ (Stanza.key "a.example" "b.example" "key"))])
    n.find? ⟨1⟩ = some 1 ∧ m.registry.get? q = n.registry.get? q ∧
      (m.session 0).isClosing = (n.session 0).isClosing ∧
      (m.session 2).pair = some ⟨"b.example", "a.example"⟩ ∧
      (m.session 2).relayFor = some "a.example" := by
  intro q past n m
  have hrun : n.find? ⟨1⟩ = some 1 ∧ n.sessions.length = 2 ∧ m.sessions.length = 3 := by
    simp only [n, m]
    rw [after_eq_foldl, after_eq_foldl]
    decide +kernel
  obtain ⟨hfind, hlength, hlength'⟩ := hrun
  have hsubject : n.subject? 1 (Stanza.key "a.example" "b.example" "key") =
      some ⟨"b.example", "a.example"⟩ := by
    rw [Node.subject?_of_dialback (Stanza.of?_key _ _ _), servedTwo.directory_after]
    decide +kernel
  obtain ⟨hothers, hclosing, -, -, hrelay, -⟩ :=
    servedTwo.receive_keeps_other_pairs past hfind (Stanza.key "a.example" "b.example" "key")
  have hold : 0 < n.sessions.length := by
    rw [hlength]
    omega
  have hnew : 2 < m.sessions.length := by
    rw [hlength']
    omega
  obtain ⟨p, hp, -, hpair, hfor⟩ := hrelay 2 (Nat.le_of_eq hlength) hnew
  have hsame : p = ⟨"b.example", "a.example"⟩ := Option.some.inj (hp.symm.trans hsubject)
  subst hsame
  refine ⟨hfind, (hothers q ?_).1, hclosing 0 hold (by decide), hpair, hfor⟩
  rw [hsubject]
  simp [q]

end Setup

end Federation
