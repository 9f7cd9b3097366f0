import Federation.Proofs.Trust.ExactPair
import Federation.Proofs.Trust.Routing

/-!
Relays, the connections that are opened to have one key verified. No key of ours is ever outstanding
on one and it is no incoming link, so of the ways to earn trust only a certificate is open to it.
The features of a peer do count on a relay as on any other connection of ours: unless a key is
presented to such peers all the same, a relay with a trusted certificate becomes trusted for its own
pair, and carries the traffic of the pair then.
-/

namespace Federation

namespace Node

variable {τ : Type} [Transport τ]

omit [Transport τ] in
theorem lt_length_of_isRelay {n : Node τ} {k : SessionKey} (h : (n.session k).isRelay) :
    k < n.sessions.length :=
  lt_length_of_session (P := fun s => s.isRelay) nofun h

/-- A relay is a connection of ours, and no key of ours is outstanding on it. -/
theorem Change.relay {n m : Node τ} {c : Cause} {k : SessionKey} {s : Session}
    (h : Change n m c k s)
    (hold : (n.session k).isRelay →
      (n.session k).role = .outbound ∧ (n.session k).keyRequests = [])
    (hrelay : s.isRelay) : s.role = .outbound ∧ s.keyRequests = [] := by
  cases h with
  | remark f hremark =>
    let view : Session → Bool × Role × List String := fun s => (s.isRelay, s.role, s.keyRequests)
    have hview : view (f (n.session k)) = view (n.session k) := by
      cases hremark with
      | phase phase => exact Session.view_setPhase view (fun _ _ => rfl) phase _
      | _ => rfl
    simp only [view, Prod.mk.injEq] at hview
    obtain ⟨hsame, hrole, hkeys⟩ := hview
    rw [hrole, hkeys]
    exact hold (hsame.symm.trans hrelay)
  | keyOffered p id secret hmay hrole hpair hplain =>
    exact absurd (hplain.symm.trans hrelay) Bool.false_ne_true
  | granted base p hgrants hbase =>
    have hidentity : ((base.join p).markTrusted p).identity = (n.session k).identity := by
      rcases hbase with rfl | rfl | ⟨id, rfl⟩ <;> rfl
    obtain ⟨hrole, hkeys⟩ := hold ((Session.isRelay_eq hidentity).symm.trans hrelay)
    have hfewer := (Session.granted_of_eq hbase).keyRequests
    rw [hkeys] at hfewer
    exact ⟨(Session.role_eq hidentity).trans hrole, List.eq_nil_iff_forall_not_mem.mpr
      fun d hd => List.not_mem_nil (hfewer d hd)⟩
  | accepted => cases hrelay
  | opened => exact ⟨rfl, rfl⟩
  | _ => exact hold hrelay

omit [Transport τ] in
/-- Of the ways to earn trust only a certificate is open to a connection of ours on which no
key is outstanding. -/
theorem Earns.exists_certified {workaround : Bool} {n : Node τ} (hbound : n.Bound) {p : DomainPair}
    {k : SessionKey} {c : Cause} (h : Earns workaround n p k c)
    (hrole : (n.session k).role = .outbound) (hkeys : (n.session k).keyRequests = []) :
    ∃ features, c = .heard k features ∧ Stanza.isStreamFeatures features ∧
      n.Certified workaround k features p := by
  cases h with
  | verdict _ stanza hkind htype hnamed hrequest => simp [Session.hasKeyRequest, hkeys] at hrequest
  | certificate _ stanza hfeatures _ hcertified => exact ⟨stanza, rfl, hfeatures, hcertified⟩
  | relayed r _ stanza id hkind htype hid hnamed hrequest htarget =>
    rw [hbound.incoming p k (List.mem_of_find?_eq_some htarget)] at hrole
    cases hrole

end Node

namespace Setup

variable {τ : Type} [Transport τ] (setup : Setup τ)

theorem relay_after (past : List (Occurrence τ)) {k : SessionKey}
    (hrelay : ((setup.after past).session k).isRelay) :
    ((setup.after past).session k).role = .outbound ∧
      ((setup.after past).session k).keyRequests = [] := by
  refine setup.invariant (P := fun n => ∀ k, (n.session k).isRelay →
    (n.session k).role = .outbound ∧ (n.session k).keyRequests = []) ?_
    (fun hmove hn k => (hmove.change k).relay (hn k)) (fun _ _ _ hn => hn) past k hrelay
  intro k hdefault
  rw [session_start] at hdefault
  cases hdefault

variable {past : List (Occurrence τ)} {k : SessionKey}

theorem certifiedBy_of_isRelay (hrelay : ((setup.after past).session k).isRelay) {p : DomainPair}
    (h : ((setup.after past).session k).isTrustedFor p) : setup.CertifiedBy past k p := by
  obtain ⟨before, event, rest, heq, hearns⟩ := setup.exists_earns_of_isTrustedFor h
  have hbound := setup.bound_after before
  have hidentity :=
    (setup.identity_append before (.event event :: rest) (hearns.lt_length hbound)).2
  rw [← heq] at hidentity
  have hrelay' := (Session.isRelay_eq hidentity).symm.trans hrelay
  obtain ⟨hrole, hkeys⟩ := setup.relay_after before hrelay'
  obtain ⟨features, hcause, hfeatures, hcertified⟩ := hearns.exists_certified hbound hrole hkeys
  exact ⟨before, event, rest, features, heq, hcause, hfeatures, hcertified⟩

theorem isTrustedFor_iff_of_isRelay (hrelay : ((setup.after past).session k).isRelay)
    {cid : DomainPair} (hcid : ((setup.after past).session k).pair = some cid) (p : DomainPair) :
    ((setup.after past).session k).isTrustedFor p ↔ p = cid ∧ setup.CertifiedBy past k cid := by
  obtain ⟨hrole, -⟩ := setup.relay_after past hrelay
  constructor
  · intro hp
    have hcertified := setup.certifiedBy_of_isRelay hrelay hp
    have hsame := setup.eq_of_certifiedBy hrole hcid hcertified
    exact ⟨hsame, hsame ▸ hcertified⟩
  · rintro ⟨rfl, hcertified⟩
    exact setup.isTrustedFor_of_certifiedBy hrole hcertified

/-- A relay is trusted for its own pair just if the features of its peer found the
certificate standing for it, and for no other pair. That takes a node that presents no key to
such peers. Traffic is written on a relay only if it is trusted so, and is if no other
session serves the pair. -/
theorem relay_trusted_iff_certified (hconns : ((setup.after past).sessions.map (·.conn)).Nodup)
    (hrelay : ((setup.after past).session k).isRelay) :
    let n := setup.after past
    ∃ cid, (n.session k).pair = some cid ∧
      (∀ p, (n.session k).isTrustedFor p ↔ p = cid ∧ setup.CertifiedBy past k cid) ∧
      (setup.CertifiedBy past k cid → setup.settings.workaround = false) ∧
      (∀ p stanza accepted,
        (n.send p stanza).2.log = n.log ++ [.write (n.session k).conn [stanza] accepted] →
        p = cid ∧ setup.CertifiedBy past k cid) ∧
      (setup.CertifiedBy past k cid → n.IsLive k → n.isOpen k → (∀ j, n.Serves cid j → j = k) →
        ∀ stanza, ∃ accepted,
          (n.send cid stanza).2.log = n.log ++ [.write (n.session k).conn [stanza] accepted]) := by
  intro n
  have hcoherent : n.Coherent := setup.coherent_after hconns
  have hbound : n.Bound := setup.bound_after past
  obtain ⟨hrole, -⟩ := setup.relay_after past hrelay
  have hk : k < n.sessions.length := Node.lt_length_of_isRelay hrelay
  obtain ⟨cid, hcid, -, -⟩ := hbound.opened k hk hrole
  have htrusted := setup.isTrustedFor_iff_of_isRelay hrelay hcid
  refine ⟨cid, hcid, htrusted, ?_, ?_, ?_⟩
  · rintro ⟨before, event, rest, features, -, -, -, hcertified⟩
    exact hcertified.workaround
  · intro p stanza accepted hlog
    cases hroute : n.route? p with
    | none =>
      rw [Node.send_of_no_route hroute] at hlog
      simp at hlog
    | some j =>
      obtain ⟨_, hwritten⟩ := Node.log_send hroute stanza
      have hserves := hcoherent.serves_of_route? hbound hroute
      have hconn : (n.session j).conn = (n.session k).conn := by
        rw [hwritten] at hlog
        have hsame := List.append_cancel_left hlog
        simp only [List.cons.injEq, Effect.write.injEq] at hsame
        exact hsame.1.1
      have hj := ((setup.wellFormed_after past).live _ j hserves.live).1
      have hsame := Node.eq_of_nodup hconns hj hk hconn
      exact (htrusted p).mp (hsame ▸ hserves.trusted)
  · intro hcertified hlive hopen honly stanza
    have hserves : n.Serves cid k := ⟨hlive, hrole, (htrusted cid).mpr ⟨rfl, hcertified⟩, hopen⟩
    obtain ⟨j, hroute⟩ := Option.isSome_iff_exists.mp (hcoherent.isSome_route? hserves)
    have hsame := honly j (hcoherent.serves_of_route? hbound hroute)
    exact Node.log_send (hsame ▸ hroute) stanza

def servedByCertificate : Setup Simulated :=
  { served with settings := { workaround := false } }

def certifiedRelay : List (Occurrence Simulated) :=
  [.event (.openConnection ⟨"b.example", "a.example"⟩ (some "a.example")),
    .event (.tlsCompleted ⟨1000⟩ .trusted),
    .event (.streamOpened ⟨1000⟩ { id := some "x", version := some "1.0" }),
    .event (.receive ⟨1000⟩ (Stanza.streamFeatures []))]

theorem relay_trusted_iff_certified_of_certifiedRelay :
    let p : DomainPair := ⟨"b.example", "a.example"⟩
    let n := servedByCertificate.after certifiedRelay
    (n.session 0).isRelay ∧ (n.session 0).isTrustedFor p ∧
      servedByCertificate.CertifiedBy certifiedRelay 0 p ∧
      ∃ accepted, (n.send p ⟨"message", [], none, []⟩).2.log =
        n.log ++ [.write (n.session 0).conn [⟨"message", [], none, []⟩] accepted] := by
  intro p n
  have hrun : (n.sessions.map (·.conn)).Nodup ∧ n.sessions.length = 1 ∧ (n.session 0).isRelay ∧
      (n.session 0).pair = some p ∧ (n.session 0).isTrustedFor p ∧
      n.find? (n.session 0).conn = some 0 ∧ n.isOpen 0 := by
    simp only [n]
    rw [after_eq_foldl]
    decide +kernel
  obtain ⟨hconns, hlength, hrelay, hpair, htrusted, hlive, hopen⟩ := hrun
  obtain ⟨cid, hcid, hiff, -, -, hcarries⟩ :=
    servedByCertificate.relay_trusted_iff_certified hconns hrelay
  have hsame : cid = p := Option.some.inj (hcid.symm.trans hpair)
  subst hsame
  have hcertified := ((hiff p).mp htrusted).2
  have honly : ∀ j, n.Serves p j → j = 0 := by
    intro j hserves
    have hj : j < n.sessions.length :=
      ((servedByCertificate.wellFormed_after certifiedRelay).live _ j hserves.live).1
    rw [hlength] at hj
    exact Nat.lt_one_iff.mp hj
  exact ⟨hrelay, htrusted, hcertified, hcarries hcertified hlive hopen honly _⟩

end Setup

end Federation
