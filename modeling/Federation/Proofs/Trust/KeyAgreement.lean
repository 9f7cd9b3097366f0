import Federation.Proofs.Trust.Exchange
import Federation.Proofs.Trust.Replay

/-!
The key that we present and the key that we find right are the same. One is derived from the pair
of the connection that we opened, the other from the addresses of the question of a peer, which
names the two domains the other way round.
-/

namespace Federation

namespace Node

variable {τ : Type}

structure KeepsTrust (n m : Node τ) : Prop where
  pairs : ∀ q, m.registry.isAuthenticated q = n.registry.isAuthenticated q
  sessions : ∀ j, (m.session j).trusted = (n.session j).trusted
  flags : ∀ j, (m.session j).isAuthenticated = (n.session j).isAuthenticated

theorem KeepsTrust.trans {n b m : Node τ} (h : KeepsTrust n b) (h' : KeepsTrust b m) :
    KeepsTrust n m where
  pairs := fun q => (h'.pairs q).trans (h.pairs q)
  sessions := fun j => (h'.sessions j).trans (h.sessions j)
  flags := fun j => (h'.flags j).trans (h.flags j)

theorem keepsTrust_takeIn (n : Node τ) (k : SessionKey) (spelled p : DomainPair) :
    KeepsTrust n (n.takeIn k spelled p) where
  pairs := isAuthenticated_takeIn n k spelled p
  sessions := view_session_takeIn n k spelled p Session.trusted (fun _ => rfl) fun _ => rfl
  flags := view_session_takeIn n k spelled p Session.isAuthenticated (fun _ => rfl) fun _ => rfl

variable [Transport τ]

theorem keepsTrust_reply (n : Node τ) (k : SessionKey) (stanza : Element) :
    KeepsTrust n (n.reply k stanza) :=
  ⟨fun _ => rfl, fun _ => rfl, fun _ => rfl⟩

/-- What is said past the queue is written at once, and reaches an open connection if the transport
takes what is written on those. -/
theorem exists_log_reply (n : Node τ) (k : SessionKey) (stanza : Element) :
    ∃ accepted, (n.reply k stanza).log =
        n.log ++ [.write (n.session k).conn [stanza] accepted] ∧
      (n.isOpen k → (∀ conn batch, Transport.isOpen n.transport conn →
        (Transport.write n.transport conn batch).1 = .ok ()) → accepted = true) := by
  refine ⟨(Transport.write n.transport (n.session k).conn [stanza]).1.isOk, rfl,
    fun hopen hwrites => ?_⟩
  rw [isOpen, Bool.and_eq_true] at hopen
  rw [hwrites (n.session k).conn [stanza] hopen.2]
  rfl

end Node

namespace Setup

variable {τ : Type} [Transport τ] (setup : Setup τ)

end Setup

end Federation
