import Federation.Proofs.Node.Coherence
import Federation.Proofs.Trust.Authority

/-!
Where the traffic of a pair goes. The way leads over the flag of the pair, its outgoing links and
what their sessions are trusted for. These agree, so that traffic is taken just if there is a
session for it.
-/

namespace Federation

namespace Node

variable {τ : Type} [Transport τ]

/-- A session may carry the traffic of a pair: we opened its connection, which is there and open,
and it is trusted for the pair. -/
structure Serves (n : Node τ) (p : DomainPair) (k : SessionKey) : Prop where
  live : n.IsLive k
  role : (n.session k).role = .outbound
  trusted : (n.session k).isTrustedFor p
  isOpen : n.isOpen k

section

variable {n : Node τ} {p : DomainPair} {k : SessionKey}

theorem Coherent.serves_of_route? (h : n.Coherent) (hbound : n.Bound)
    (hroute : n.route? p = some k) : n.Serves p k := by
  obtain ⟨-, hlink, htrusted, hopen⟩ := of_route? hroute
  obtain ⟨hrole, -⟩ := hbound.outgoing p k hlink
  obtain ⟨e, he, l, hl, rfl⟩ := mem_outgoingKeys_iff.mp hlink
  obtain ⟨-, hlive, -⟩ := h.links p e he .outbound l hl
  exact ⟨hlive, hrole, htrusted, hopen⟩

/-- Whoever may carry the traffic of a pair is found, or another one. -/
theorem Coherent.isSome_route? (h : n.Coherent) (hserves : n.Serves p k) : (n.route? p).isSome := by
  obtain ⟨hjoined, hauth⟩ := h.trusted k hserves.live p hserves.trusted
  obtain ⟨e, he, hl⟩ := h.joined k hserves.live p hjoined
  rw [hserves.role] at hl
  have hlink : k ∈ n.outgoingKeys p := mem_outgoingKeys_iff.mpr ⟨e, he, n.link k, hl, rfl⟩
  rw [route?, if_pos hauth, routableLink?, List.find?_isSome]
  exact ⟨k, hlink, by simp [hserves.trusted, hserves.isOpen]⟩

end

end Node

namespace Setup

variable {τ : Type} [Transport τ] (setup : Setup τ)

end Setup

end Federation
