import Federation.Proofs.Node.Persistence
import Federation.Proofs.Trust.Closing
import Federation.Proofs.Trust.Departure

/-!
How long the trust in a pair lasts. It begins when a session earns it, stays as long as the pair has
a link, whichever link that is, and ends with the last one. Nothing else ends it, and a pair that
gets links again has to earn it again.
-/

namespace Federation

namespace Node

variable {τ : Type}

theorem linkKeys_ne_nil_iff {n : Node τ} {p : DomainPair} :
    n.linkKeys p ≠ [] ↔ ∃ e, n.registry.get? p = some e ∧ e.links ≠ [] := by
  unfold linkKeys
  cases n.registry.get? p with
  | none => simp
  | some e => simp

theorem IsLinked.linkKeys_ne_nil {n : Node τ} (h : n.IsLinked) {p : DomainPair}
    (hauth : n.registry.isAuthenticated p) : n.linkKeys p ≠ [] := by
  obtain ⟨e, he, hentry⟩ := Registry.isAuthenticated_eq_true.mp hauth
  exact linkKeys_ne_nil_iff.mpr ⟨e, he, h p e he hentry⟩

section Coherent

variable {n : Node τ} (h : n.Coherent) {p : DomainPair}

include h

theorem Coherent.isLive_of_mem_linkKeys {k : SessionKey} (hk : k ∈ n.linkKeys p) : n.IsLive k := by
  obtain ⟨e, he, side, l, hl, rfl⟩ := Node.mem_linkKeys_iff.mp hk
  exact (h.links p e he side l hl).2.1

/-- A link of a pair that is not trusted is not trusted for it. -/
theorem Coherent.not_isTrustedFor_of_mem_linkKeys (hnot : ¬ n.registry.isAuthenticated p)
    {k : SessionKey} (hk : k ∈ n.linkKeys p) : ¬ (n.session k).isTrustedFor p := by
  intro htrusted
  exact hnot (h.trusted k (h.isLive_of_mem_linkKeys hk) p htrusted).2

/-- Trust is earned by a session whose connection is there. -/
theorem Coherent.isLive_of_earns (hn : n.WellFormed) {workaround : Bool} {k : SessionKey}
    {event : Event} (hearns : Earns workaround n p k (n.cause event)) : n.IsLive k := by
  generalize hcause : n.cause event = c at hearns
  have hheard : ∀ e, c = .heard k e → n.IsLive k := by
    rintro e rfl
    obtain ⟨conn, -, hfind⟩ := exists_of_cause_eq_heard hcause
    exact (congrArg n.find? (hn.live conn k hfind).2).trans hfind
  cases hearns with
  | verdict _ stanza => exact hheard stanza rfl
  | certificate _ stanza => exact hheard stanza rfl
  | relayed r _ stanza id hkind htype hid hnamed hrequest htarget =>
    have hlink : k ∈ n.incomingKeys p := List.mem_of_find?_eq_some htarget
    exact h.isLive_of_mem_linkKeys (mem_linkKeys_of_mem_incomingKeys hlink)

/-- The session that earns a pair its trust was not trusted for it before. -/
theorem Coherent.not_isTrustedFor_of_earns (hn : n.WellFormed)
    (hnot : ¬ n.registry.isAuthenticated p) {workaround : Bool} {k : SessionKey} {event : Event}
    (hearns : Earns workaround n p k (n.cause event)) : ¬ (n.session k).isTrustedFor p := by
  intro htrusted
  exact hnot (h.trusted k (h.isLive_of_earns hn hearns) p htrusted).2

variable [Transport τ]

/-- The trust in a pair is lost at the end of a connection whose session is its only link. -/
theorem Coherent.closed_of_lost (hn : n.WellFormed) (hbound : n.Bound) (hlinked : n.IsLinked)
    (settings : Settings) {event : Event}
    (hconns : ((n.step (Chain.standard settings) event).sessions.map (·.conn)).Nodup)
    (hauth : n.registry.isAuthenticated p)
    (hlost : ¬ (n.step (Chain.standard settings) event).registry.isAuthenticated p) :
    ∃ conn k, event = .connectionClosed conn ∧ n.find? conn = some k ∧
      (∀ j ∈ n.linkKeys p, j = k) ∧
      (n.step (Chain.standard settings) event).linkKeys p = [] := by
  rcases h.isAuthenticated_step_or_closed hn hbound settings event hlinked hconns hauth with
    hkept | ⟨conn, k, rfl, hfind, hends⟩
  · exact absurd hkept hlost
  · refine ⟨conn, k, rfl, hfind, ?_, ?_⟩
    · intro j hj
      obtain ⟨e, he, side, l, hl, rfl⟩ := Node.mem_linkKeys_iff.mp hj
      obtain ⟨-, hconn⟩ := hends e he
      have hl' := TrustEntry.mem_links_of_mem_side hl
      exact (h.mem_joined_of_mem_links hfind he hl' (hconn l hl')).1
    · obtain ⟨e, he, -⟩ := Registry.isAuthenticated_eq_true.mp hauth
      have hgone := ((h.departs hn hfind).dropped p e he).mpr (hends e he)
      simp only [step, linkKeys, hgone]

end Coherent

end Node

namespace Setup

variable {τ : Type} [Transport τ] (setup : Setup τ)

theorem isLinked_after (past : List (Occurrence τ)) : (setup.after past).IsLinked :=
  setup.invariant (P := Node.IsLinked) (fun _ _ he => by cases he)
    (fun hmove hn => hmove.isLinked hn) (fun _ _ _ hn => hn) past

/-- Connections that are all different were so at any time before. -/
theorem nodup_conns_of_append {before rest : List (Occurrence τ)}
    (hconns : ((setup.after (before ++ rest)).sessions.map (·.conn)).Nodup) :
    ((setup.after before).sessions.map (·.conn)).Nodup :=
  (setup.map_sessions_prefix Session.conn Session.conn_eq
    (List.prefix_append before rest)).sublist.nodup hconns

/-- A connection stays with its session until its end. -/
theorem find?_append {before rest : List (Occurrence τ)} {conn : ConnId} {k : SessionKey}
    (hfind : (setup.after before).find? conn = some k)
    (hopen : Occurrence.event (.connectionClosed conn) ∉ rest)
    (hconns : ((setup.after (before ++ rest)).sessions.map (·.conn)).Nodup) :
    (setup.after (before ++ rest)).find? conn = some k := by
  induction rest using List.reverseRecOn with
  | nil => rwa [List.append_nil]
  | append_singleton rest o ih =>
    rw [← List.append_assoc] at hconns ⊢
    have hstill := ih (fun hmem => hopen (List.mem_append_left _ hmem))
      (setup.nodup_conns_of_append hconns)
    rw [after_snoc] at hconns ⊢
    cases o with
    | drift transport pinned => exact hstill
    | event event =>
      refine Node.find?_step_of_nodup (setup.wellFormed_after _) (setup.bound_after _)
        setup.settings event hstill (fun heq => hopen ?_) hconns
      rw [heq]
      exact List.mem_append_right _ (List.mem_singleton_self _)

/-- A pair has links after an event, and has had some ever since. -/
def LinkedSince (before : List (Occurrence τ)) (event : Event) (rest : List (Occurrence τ))
    (p : DomainPair) : Prop :=
  ∀ mid, mid <+: rest → (setup.after (before ++ .event event :: mid)).linkKeys p ≠ []

variable {past before rest : List (Occurrence τ)} {event : Event} {p : DomainPair}

/-- An event that ends the trust in a pair is the end of its only link. -/
theorem closed_of_lost
    (hconns : ((setup.after (before ++ [.event event])).sessions.map (·.conn)).Nodup)
    (hauth : (setup.after before).registry.isAuthenticated p)
    (hlost : ¬ (setup.after (before ++ [.event event])).registry.isAuthenticated p) :
    ∃ conn k, event = .connectionClosed conn ∧ (setup.after before).find? conn = some k ∧
      (∀ j ∈ (setup.after before).linkKeys p, j = k) ∧
      (setup.after (before ++ [.event event])).linkKeys p = [] := by
  have hcoherent := setup.coherent_after (setup.nodup_conns_of_append hconns)
  rw [after_snoc] at hconns hlost ⊢
  exact hcoherent.closed_of_lost (setup.wellFormed_after before) (setup.bound_after before)
    (setup.isLinked_after before) setup.settings hconns hauth hlost

theorem isAuthenticated_iff_linked
    (hconns : ((setup.after (before ++ [.event event])).sessions.map (·.conn)).Nodup)
    (hauth : (setup.after before).registry.isAuthenticated p) :
    (setup.after (before ++ [.event event])).registry.isAuthenticated p ↔
      (setup.after (before ++ [.event event])).linkKeys p ≠ [] := by
  constructor
  · exact (setup.isLinked_after _).linkKeys_ne_nil
  · intro hlinks
    by_contra hlost
    obtain ⟨-, -, -, -, -, hnone⟩ := setup.closed_of_lost hconns hauth hlost
    exact hlinks hnone

/-- Trust lasts while there are links. -/
theorem isAuthenticated_of_linkedSince
    (hconns : ((setup.after (before ++ .event event :: rest)).sessions.map (·.conn)).Nodup)
    (hauth : (setup.after (before ++ [.event event])).registry.isAuthenticated p)
    (hlinked : setup.LinkedSince before event rest p) :
    (setup.after (before ++ .event event :: rest)).registry.isAuthenticated p := by
  induction rest using List.reverseRecOn with
  | nil => exact hauth
  | append_singleton rest o ih =>
    have hsplit : before ++ .event event :: (rest ++ [o]) =
        (before ++ .event event :: rest) ++ [o] := by simp
    have hwhole := hlinked (rest ++ [o]) (List.prefix_refl _)
    rw [hsplit] at hconns hwhole ⊢
    have hold := ih (setup.nodup_conns_of_append hconns) fun mid hmid =>
      hlinked mid (hmid.trans (List.prefix_append _ _))
    cases o with
    | drift transport pinned =>
      rw [after_snoc]
      exact hold
    | event later => exact (setup.isAuthenticated_iff_linked hconns hold).mpr hwhole

/-- The trust that a pair has now it earned at an event, and has had links since. -/
theorem exists_earning (hauth : (setup.after past).registry.isAuthenticated p) :
    ∃ before event rest k, past = before ++ .event event :: rest ∧
      ¬ (setup.after before).registry.isAuthenticated p ∧
      Node.Earns setup.settings.workaround (setup.after before) p k
        ((setup.after before).cause event) ∧
      setup.LinkedSince before event rest p := by
  obtain ⟨before, event, rest, heq, hnot, hsince⟩ := setup.exists_since
    (P := fun n => n.registry.isAuthenticated p) Bool.false_ne_true (fun _ _ _ hn => hn) hauth
  obtain ⟨k, hearns⟩ :=
    (setup.isAuthenticated_event_iff before event hnot).mp (hsince [] List.nil_prefix)
  refine ⟨before, event, rest, k, heq, hnot, hearns, fun mid hmid => ?_⟩
  exact (setup.isLinked_after _).linkKeys_ne_nil (hsince mid hmid)

/-- A pair is trusted just if some session earned it at an event since which the pair has had links
all the time, or, what comes to the same, became trusted for it there. An event ends the trust in a
pair just if it leaves the pair without links, and that only the end of the connection of its last
link does. A pair that is not trusted has no link that is trusted for it, and has to earn trust as
if it were new. -/
theorem trust_lasts_while_linked
    (hconns : ((setup.after past).sessions.map (·.conn)).Nodup) (p : DomainPair) :
    ((setup.after past).registry.isAuthenticated p ↔
      ∃ before event rest k, past = before ++ .event event :: rest ∧
        Node.Earns setup.settings.workaround (setup.after before) p k
          ((setup.after before).cause event) ∧
        setup.LinkedSince before event rest p) ∧
    ((setup.after past).registry.isAuthenticated p ↔
      ∃ before event rest k, past = before ++ .event event :: rest ∧
        ¬ ((setup.after before).session k).isTrustedFor p ∧
        ((setup.after (before ++ [.event event])).session k).isTrustedFor p ∧
        setup.LinkedSince before event rest p) ∧
    ∀ before event rest, past = before ++ .event event :: rest →
      let n := setup.after before
      let m := setup.after (before ++ [.event event])
      (∀ k, (m.session k).isTrustedFor p ↔ (n.session k).isTrustedFor p ∨
        Node.Earns setup.settings.workaround n p k (n.cause event)) ∧
      (n.registry.isAuthenticated p →
        (m.registry.isAuthenticated p ↔ m.linkKeys p ≠ []) ∧
        (¬ m.registry.isAuthenticated p → ∃ conn k, event = .connectionClosed conn ∧
          n.find? conn = some k ∧ ∀ j ∈ n.linkKeys p, j = k)) ∧
      (¬ n.registry.isAuthenticated p →
        (m.registry.isAuthenticated p ↔
          ∃ k, Node.Earns setup.settings.workaround n p k (n.cause event)) ∧
        ∀ k ∈ n.linkKeys p, ¬ (n.session k).isTrustedFor p) := by
  have hcoherent : ∀ before rest, past = before ++ rest → (setup.after before).Coherent := by
    rintro before rest rfl
    exact setup.coherent_after (setup.nodup_conns_of_append hconns)
  have hlasts : ∀ before event rest k, past = before ++ .event event :: rest →
      Node.Earns setup.settings.workaround (setup.after before) p k
        ((setup.after before).cause event) → setup.LinkedSince before event rest p →
      (setup.after past).registry.isAuthenticated p := by
    rintro before event rest k rfl hearns hlinked
    exact setup.isAuthenticated_of_linkedSince hconns
      (setup.isAuthenticated_of_earns before event hearns) hlinked
  refine ⟨⟨fun hauth => ?_, ?_⟩, ⟨fun hauth => ?_, ?_⟩, ?_⟩
  · obtain ⟨before, event, rest, k, heq, -, hearns, hlinked⟩ := setup.exists_earning hauth
    exact ⟨before, event, rest, k, heq, hearns, hlinked⟩
  · rintro ⟨before, event, rest, k, heq, hearns, hlinked⟩
    exact hlasts before event rest k heq hearns hlinked
  · obtain ⟨before, event, rest, k, heq, hnot, hearns, hlinked⟩ := setup.exists_earning hauth
    have hnew := (hcoherent before _ heq).not_isTrustedFor_of_earns (setup.wellFormed_after before)
      hnot hearns
    exact ⟨before, event, rest, k, heq, hnew,
      (setup.isTrustedFor_event_iff before event).mpr (Or.inr hearns), hlinked⟩
  · rintro ⟨before, event, rest, k, heq, hnot, hafter, hlinked⟩
    rcases (setup.isTrustedFor_event_iff before event).mp hafter with hold | hearns
    · exact absurd hold hnot
    · exact hlasts before event rest k heq hearns hlinked
  · intro before event rest heq n m
    have hsplit : past = before ++ [.event event] ++ rest := by simp [heq]
    have hconns' : (m.sessions.map (·.conn)).Nodup :=
      setup.nodup_conns_of_append (hsplit ▸ hconns)
    refine ⟨fun k => setup.isTrustedFor_event_iff before event,
      fun hauth => ⟨?_, fun hlost => ?_⟩, fun hnot => ⟨?_, ?_⟩⟩
    · exact setup.isAuthenticated_iff_linked hconns' hauth
    · obtain ⟨conn, k, hevent, hfind, honly, -⟩ := setup.closed_of_lost hconns' hauth hlost
      exact ⟨conn, k, hevent, hfind, honly⟩
    · exact setup.isAuthenticated_event_iff before event hnot
    · intro k
      exact (hcoherent before _ heq).not_isTrustedFor_of_mem_linkKeys hnot

/-- A key was verified over a relay. The pair stays trusted when the relay goes, and is not trusted
any more when the connection goes on which the key was presented. -/
theorem trust_lasts_while_linked_of_keyVerified :
    let p : DomainPair := ⟨"b.example", "a.example"⟩
    let relayGone := keyVerified ++ [.event (.connectionClosed ⟨1000⟩)]
    let allGone := relayGone ++ [.event (.connectionClosed ⟨1⟩)]
    (∃ before event rest k, relayGone = before ++ .event event :: rest ∧
      ¬ ((served.after before).session k).isTrustedFor p ∧
      ((served.after (before ++ [.event event])).session k).isTrustedFor p ∧
      served.LinkedSince before event rest p) ∧
    (∀ j ∈ (served.after relayGone).linkKeys p, j = 0) ∧
    (served.after allGone).linkKeys p = [] ∧
    ¬ (served.after allGone).registry.isAuthenticated p := by
  intro p relayGone allGone
  have hrun : ((served.after relayGone).sessions.map (·.conn)).Nodup ∧
      (served.after relayGone).registry.isAuthenticated p ∧
      (served.after relayGone).find? ⟨1⟩ = some 0 ∧
      ((served.after allGone).sessions.map (·.conn)).Nodup ∧
      ¬ (served.after allGone).registry.isAuthenticated p := by
    rw [after_eq_foldl, after_eq_foldl]
    decide +kernel
  obtain ⟨hconns, hauth, hfind, hconns', hlost⟩ := hrun
  obtain ⟨-, hmarked, -⟩ := served.trust_lasts_while_linked hconns p
  obtain ⟨-, -, hsteps⟩ := served.trust_lasts_while_linked hconns' p
  obtain ⟨-, hloss, -⟩ := hsteps relayGone (.connectionClosed ⟨1⟩) [] rfl
  obtain ⟨hiff, hcause⟩ := hloss hauth
  obtain ⟨conn, k, hevent, hfind', honly⟩ := hcause hlost
  have hconn : conn = ⟨1⟩ := (Event.connectionClosed.inj hevent).symm
  rw [hconn, hfind] at hfind'
  have hk : k = 0 := (Option.some.inj hfind').symm
  exact ⟨hmarked.mp hauth, hk ▸ honly, not_not.mp (mt hiff.mpr hlost), hlost⟩

end Setup

end Federation
