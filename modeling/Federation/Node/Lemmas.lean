import Federation.Node.Basic

/-!
What the smallest steps on a node do to its sessions and to the sessions of its connections.
-/

namespace Federation.Node

variable {τ : Type}

@[simp] theorem length_sessions_alter (n : Node τ) (k : SessionKey) (f : Session → Session) :
    (n.alter k f).sessions.length = n.sessions.length := by
  simp [alter]

theorem session_alter_self {n : Node τ} {k : SessionKey} (h : k < n.sessions.length)
    (f : Session → Session) : (n.alter k f).session k = f (n.session k) := by
  simp [session, alter, h]

theorem session_alter_of_ne (n : Node τ) {j k : SessionKey} (hne : j ≠ k)
    (f : Session → Session) : (n.alter k f).session j = n.session j := by
  simp [session, alter, hne.symm]

@[simp] theorem session_addSession_self (n : Node τ) (s : Session) :
    (n.addSession s).session n.sessions.length = s := by
  simp [session, addSession]

theorem session_addSession_of_lt {n : Node τ} {k : SessionKey} (h : k < n.sessions.length)
    (s : Session) : (n.addSession s).session k = n.session k := by
  simp [session, addSession, List.getElem?_append_left h]

@[simp] theorem find?_register_self (n : Node τ) (conn : ConnId) (k : SessionKey) :
    (n.register conn k).find? conn = some k := by
  simp only [find?, register]
  induction n.live with
  | nil => simp
  | cons entry rest ih =>
    obtain ⟨c, j⟩ := entry
    by_cases hc : c = conn
    · simpa [hc] using ih
    · have hconn : (conn == c) = false := by simpa using fun h => hc h.symm
      simpa [hc, List.lookup_cons, hconn] using ih

@[simp] theorem find?_unregister_self (n : Node τ) (conn : ConnId) :
    (n.unregister conn).find? conn = none := by
  simp only [find?, unregister, List.lookup_eq_none_iff]
  intro entry hentry
  have hne : entry.1 ≠ conn := by simpa using (List.mem_filter.mp hentry).2
  simpa using hne.symm

theorem find?_unregister_of_ne (n : Node τ) {conn other : ConnId} (hne : other ≠ conn) :
    (n.unregister conn).find? other = n.find? other := by
  simp only [find?, unregister]
  induction n.live with
  | nil => rfl
  | cons entry rest ih =>
    obtain ⟨c, j⟩ := entry
    by_cases hc : c = conn
    · subst hc
      have hother : (other == c) = false := by simpa using hne
      simpa [List.lookup_cons, hother] using ih
    · by_cases ho : other = c
      · simp [ho, hc]
      · have hother : (other == c) = false := by simpa using ho
        simpa [hc, List.lookup_cons, hother] using ih

end Federation.Node
