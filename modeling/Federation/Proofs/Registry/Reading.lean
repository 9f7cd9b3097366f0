import Federation.Proofs.Domain.Addressing
import Federation.Proofs.Registry.Access
import Federation.Proofs.Trust.Authority

/-!
Reading from the registry. The registry of a node is filled by calls of the registry alone, so its
keys are in order. Access checks a pair and brings it into canonical form; the reads do not, and
neither does the routing of traffic, which reads. A pair that the check accepts is therefore read as
one that is not stored unless it is spelled canonically: in lowercase and without a root dot.
-/

namespace Federation

namespace Registry

variable {isServed : String → Bool} {r : Registry} {x p : DomainPair}

/-- A canonical pair is given the entry that it asks for. -/
theorem perform_entry (hp : p.IsCanonical isServed) (r : Registry) :
    r.perform isServed (.entry p) = r.ensure p := by
  have hcanonical : r.canonical isServed p = .ok p := by
    unfold canonical
    split
    · rfl
    · exact hp
  have hown := get?_ensure_self r p
  simp only [perform, entry, getOrCreate, hcanonical, if_true, hown]

/-- A spelling that is stored is the canonical one. -/
theorem WellKeyed.get?_of_checked (h : WellKeyed isServed r)
    (hcheck : DomainPair.checked x.own x.peer isServed = .ok p) :
    r.get? x = if x = p then r.get? p else none := by
  split
  · rename_i hx
    rw [hx]
  · rename_i hx
    cases hget : r.get? x with
    | none => rfl
    | some e => exact absurd (Except.ok.inj ((h.isCanonical_of_get? hget).symm.trans hcheck)) hx

theorem WellKeyed.isAuthenticated_of_checked (h : WellKeyed isServed r)
    (hcheck : DomainPair.checked x.own x.peer isServed = .ok p) :
    r.isAuthenticated x = (decide (x = p) && r.isAuthenticated p) := by
  rw [isAuthenticated, h.get?_of_checked hcheck]
  by_cases hx : x = p <;> simp [hx, isAuthenticated]

end Registry

namespace Node

open Registry (Call)

variable {τ : Type} {n : Node τ}

/-- A session that becomes trusted for a pair is a link of it first. -/
theorem registry_trust_eq_perform (isServed : String → Bool) (n : Node τ) (p : DomainPair)
    (k : SessionKey) : (n.trust p k).registry =
      [Call.join p (n.session k).role (n.link k), .authenticate p].foldl
        (Registry.perform isServed) n.registry := by
  rw [registry_trust, addLink]
  cases (n.session k).role with
  | inbound => rfl
  | outbound => rfl

variable [Transport τ] {m : Node τ} {c : Cause}

/-- A move reaches the registry by calls of the registry only. -/
theorem Move.exists_calls (h : Move c n m) :
    ∃ calls : List Call, m.registry =
      calls.foldl (Registry.perform n.directory.isServed) n.registry := by
  cases h with
  | ensure p hconcerns => exact ⟨[.entry p], (Registry.perform_entry hconcerns.isCanonical _).symm⟩
  | join k stanza p => exact ⟨[.join p .inbound (n.link k)], rfl⟩
  | grantVerdict k stanza p => exact ⟨_, registry_trust_eq_perform _ (n.alter k _) p k⟩
  | grantCertificate k stanza pair p => exact ⟨_, registry_trust_eq_perform _ n p k⟩
  | grantRelayed i k stanza p id => exact ⟨_, registry_trust_eq_perform _ (n.alter i _) p k⟩
  | establish p relayFor conn =>
    exact ⟨[.join p .outbound ⟨conn, n.sessions.length⟩], registry_establish _ p relayFor conn⟩
  | close conn k hfind =>
    exact ⟨[.leave (n.session k).joined (n.session k).conn], registry_connectionClosed hfind⟩
  | offerKey k p => exact ⟨[], registry_offerKey n k p _⟩
  | flush k => exact ⟨[], registry_flush n k⟩
  | stop k force => exact ⟨[], registry_stop n k force⟩
  | _ => exact ⟨[], rfl⟩

/-- Traffic of a spelling that is not the canonical one is refused. -/
theorem send_of_checked {isServed : String → Bool} (h : n.registry.WellKeyed isServed)
    {x p : DomainPair} (hcheck : DomainPair.checked x.own x.peer isServed = .ok p)
    (stanza : Element) :
    n.send x stanza =
      if x = p then n.send p stanza else (.error (.notAuthenticated x), n) := by
  split
  · rename_i hx
    rw [hx]
  · rename_i hx
    simp [send, route?, h.isAuthenticated_of_checked hcheck, hx]

end Node

namespace Setup

variable {τ : Type} [Transport τ] (setup : Setup τ)

/-- The registry of a node is what some calls make of the empty one. -/
theorem exists_calls (past : List (Occurrence τ)) : ∃ calls : List Registry.Call,
    (setup.after past).registry = Registry.after setup.directory.isServed calls := by
  have hinvariant : (setup.after past).directory = setup.directory ∧
      ∃ calls : List Registry.Call,
        (setup.after past).registry = Registry.after setup.directory.isServed calls := by
    refine setup.invariant (P := fun n => n.directory = setup.directory ∧ ∃ calls,
      n.registry = Registry.after setup.directory.isServed calls) ⟨rfl, [], rfl⟩ ?_
      (fun _ _ _ hn => hn) past
    rintro c n m hmove ⟨hdirectory, before, hn⟩
    obtain ⟨calls, hm⟩ := hmove.exists_calls
    refine ⟨hmove.directory_eq.trans hdirectory, before ++ calls, ?_⟩
    rw [hm, hn, hdirectory, Registry.after, Registry.after, List.foldl_append]
  exact hinvariant.2

theorem wellKeyed_registry (past : List (Occurrence τ)) :
    (setup.after past).registry.WellKeyed setup.directory.isServed := by
  obtain ⟨calls, h⟩ := setup.exists_calls past
  exact h ▸ Registry.wellKeyed_after setup.directory.isServed calls

/-- Of a pair that the check accepts, access gives the entry of the canonical form, in whatever
spelling. What is read in a spelling, whether it is trusted and whether its traffic is taken, is
that of the canonical form just if the spelling is this form, in lowercase and without root dots;
else nothing is read, and the traffic is refused. -/
theorem reads_are_literal (past : List (Occurrence τ)) {x p : DomainPair}
    (hcheck : DomainPair.checked x.own x.peer setup.directory.isServed = .ok p) :
    (setup.after past).registry.getOrCreate setup.directory.isServed x false =
      .ok ((setup.after past).registry.get? p, (setup.after past).registry) ∧
    ((setup.after past).registry.get? x =
      if x = p then (setup.after past).registry.get? p else none) ∧
    (setup.after past).registry.isAuthenticated x =
      (decide (x = p) && (setup.after past).registry.isAuthenticated p) ∧
    (∀ stanza, (setup.after past).send x stanza =
      if x = p then (setup.after past).send p stanza
      else (.error (.notAuthenticated x), setup.after past)) ∧
    (x = p ↔ Text.lower x.own = x.own ∧ Text.lower x.peer = x.peer ∧
      Domain.rootDot x.own = "" ∧ Domain.rootDot x.peer = "") := by
  have h := setup.wellKeyed_registry past
  exact ⟨h.getOrCreate_of_checked hcheck false, h.get?_of_checked hcheck,
    h.isAuthenticated_of_checked hcheck, Node.send_of_checked h hcheck,
    DomainPair.eq_iff_of_checked hcheck⟩

/-- A pair that is trusted: with a root dot access finds it, but it reads as one that is not
trusted, and its traffic is refused. -/
theorem reads_are_literal_of_root_dot :
    let p : DomainPair := ⟨"b.example", "a.example"⟩
    let x : DomainPair := ⟨"b.example.", "a.example"⟩
    let past := keySent p ++ [.event (.receive ⟨1000⟩
      (Stanza.resultReply "a.example" "b.example" .valid none))]
    let n := served.after past
    DomainPair.checked x.own x.peer served.directory.isServed = .ok p ∧
    (∃ e, n.registry.getOrCreate served.directory.isServed x false = .ok (some e, n.registry) ∧
      n.registry.get? p = some e ∧ n.registry.get? x = none) ∧
    n.registry.isAuthenticated p ∧ ¬ n.registry.isAuthenticated x ∧
    (n.send p ⟨"message", [], none, []⟩).1.toOption = some () ∧
    n.send x ⟨"message", [], none, []⟩ = (.error (.notAuthenticated x), n) := by
  intro p x past n
  have hcheck : DomainPair.checked x.own x.peer served.directory.isServed = .ok p := by
    decide +kernel
  have hne : x ≠ p := by decide
  have hrun : (n.registry.get? p).isSome ∧ n.registry.isAuthenticated p ∧
      (n.send p ⟨"message", [], none, []⟩).1.toOption = some () := by
    simp only [n]
    rw [after_eq_foldl]
    decide +kernel
  obtain ⟨hstored, htrusted, htaken⟩ := hrun
  obtain ⟨e, he⟩ := Option.isSome_iff_exists.mp hstored
  obtain ⟨haccess, hget, hread, hsend, -⟩ := served.reads_are_literal past hcheck
  refine ⟨hcheck, ⟨e, ?_, he, hget.trans (if_neg hne)⟩, htrusted, ?_, htaken,
    (hsend _).trans (if_neg hne)⟩
  · rw [← he]
    exact haccess
  · rw [hread, decide_eq_false hne]
    exact Bool.false_ne_true

end Setup

end Federation
