import Federation.Proofs.Node.Coherence
import Federation.Proofs.Registry.Reading

/-!
The order of links. On either side of a pair the links stand in the order of their connections, and
no two are of the same one: a link is put before the first one of a later connection, and one whose
connection is there already is not added. So in every registry that was filled by its calls, and to
add a link twice is to add it once.
-/

namespace Federation

namespace Link

def InOrder (links : List Link) : Prop :=
  links.Pairwise fun l m => l.conn.number < m.conn.number

theorem InOrder.insert {links : List Link} (h : InOrder links) (link : Link) :
    InOrder (link.insert links) := by
  induction links with
  | nil => exact List.pairwise_singleton _ link
  | cons l rest ih =>
    obtain ⟨hl, hrest⟩ := List.pairwise_cons.mp h
    rw [Link.insert]
    by_cases hconn : link.conn = l.conn
    · rwa [if_pos hconn]
    rw [if_neg hconn]
    by_cases hlt : link.conn.number < l.conn.number
    · rw [if_pos hlt]
      refine List.pairwise_cons.mpr ⟨fun m hm => ?_, h⟩
      rcases List.mem_cons.mp hm with rfl | hlater
      · exact hlt
      · exact Nat.lt_trans hlt (hl m hlater)
    · rw [if_neg hlt]
      refine List.pairwise_cons.mpr ⟨fun m hm => ?_, ih hrest⟩
      rcases eq_or_mem_of_mem_insert hm with rfl | hlater
      · have hne : m.conn.number ≠ l.conn.number := fun heq => hconn (congrArg ConnId.mk heq)
        omega
      · exact hl m hlater

theorem InOrder.remove {links : List Link} (h : InOrder links) (conn : ConnId) :
    InOrder (Link.remove conn links) :=
  h.sublist List.filter_sublist

end Link

theorem TrustEntry.side_unlink (side : Role) (conn : ConnId) (e : TrustEntry) :
    (e.unlink conn).side side = Link.remove conn (e.side side) := by
  cases side <;> rfl

namespace Registry

def LinksInOrder (r : Registry) : Prop :=
  ∀ e ∈ r.entries, ∀ side, Link.InOrder (e.side side)

variable {r : Registry}

namespace LinksInOrder

theorem alter (h : LinksInOrder r) {f : TrustEntry → TrustEntry}
    (hf : ∀ e, (∀ side, Link.InOrder (e.side side)) → ∀ side, Link.InOrder ((f e).side side))
    (p : DomainPair) : LinksInOrder (r.alter p f) := by
  intro e he
  obtain ⟨d, hd, rfl⟩ := List.mem_map.mp he
  split
  · exact hf d (h d hd)
  · exact h d hd

theorem ensure (h : LinksInOrder r) (p : DomainPair) : LinksInOrder (r.ensure p) := by
  rw [Registry.ensure]
  split
  · exact h
  · intro e he side
    rcases List.mem_append.mp he with hold | hnew
    · exact h e hold side
    · rw [List.mem_singleton.mp hnew]
      cases side <;> exact List.Pairwise.nil

theorem getOrCreate (h : LinksInOrder r) {isServed : String → Bool} {pair : DomainPair}
    {create : Bool} {found : Option TrustEntry} {s : Registry}
    (hgot : r.getOrCreate isServed pair create = .ok (found, s)) : LinksInOrder s := by
  unfold Registry.getOrCreate at hgot
  split at hgot
  · cases hgot
  · cases hgot
    split
    · exact h.ensure _
    · exact h

theorem unlink (h : LinksInOrder r) (p : DomainPair) (conn : ConnId) :
    LinksInOrder (r.unlink p conn) := by
  rw [Registry.unlink]
  split
  · exact h
  · split
    · exact fun e he => h e (List.mem_of_mem_filter he)
    · refine h.alter (fun e he side => ?_) p
      rw [TrustEntry.side_unlink]
      exact (he side).remove conn

theorem leave (h : LinksInOrder r) (joined : List DomainPair) (conn : ConnId) :
    LinksInOrder (joined.foldl (fun r pair => r.unlink pair conn) r) := by
  induction joined generalizing r with
  | nil => exact h
  | cons p rest ih => exact ih (h.unlink p conn)

theorem perform (h : LinksInOrder r) (isServed : String → Bool) (call : Call) :
    LinksInOrder (r.perform isServed call) := by
  cases call with
  | getOrCreate pair create =>
    cases hgot : r.getOrCreate isServed pair create with
    | error e => simpa only [Registry.perform, hgot] using h
    | ok result => simpa only [Registry.perform, hgot] using h.getOrCreate hgot
  | entry pair =>
    cases hgot : r.getOrCreate isServed pair true with
    | error e => simpa only [Registry.perform, Registry.entry, hgot] using h
    | ok result =>
      obtain ⟨found, s⟩ := result
      cases found with
      | none => simpa only [Registry.perform, Registry.entry, hgot] using h
      | some e => simpa only [Registry.perform, Registry.entry, hgot] using h.getOrCreate hgot
  | join pair side link =>
    cases side with
    | inbound =>
      refine h.alter (fun e he side => ?_) pair
      cases side with
      | inbound => exact (he .inbound).insert link
      | outbound => exact he .outbound
    | outbound =>
      refine h.alter (fun e he side => ?_) pair
      cases side with
      | inbound => exact he .inbound
      | outbound => exact (he .outbound).insert link
  | authenticate pair =>
    exact h.alter (fun e he side => by rw [TrustEntry.side_authenticate]; exact he side) pair
  | leave joined conn => exact h.leave joined conn

end LinksInOrder

/-- Two changes of one entry are one change. -/
theorem alter_alter {f : TrustEntry → TrustEntry} (hf : ∀ e, (f e).pair = e.pair) (r : Registry)
    (p : DomainPair) (g : TrustEntry → TrustEntry) :
    (r.alter p f).alter p g = r.alter p fun e => g (f e) := by
  rw [alter, alter, alter, List.map_map]
  congr 1
  refine List.map_congr_left fun e _ => ?_
  by_cases he : e.pair = p <;> simp [he, hf]

end Registry

end Federation
