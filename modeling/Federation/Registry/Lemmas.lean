import Federation.Registry.Basic

/-!
What each operation on links and entries does to look-ups. An operation on one pair changes the
entry of that pair only, and an entry is stored under the pair that it names.
-/

namespace Federation

namespace Link

theorem mem_insert_self (link : Link) (links : List Link) :
    ∃ l ∈ link.insert links, l.conn = link.conn := by
  induction links with
  | nil => exact ⟨link, by simp [insert], rfl⟩
  | cons l rest ih =>
    by_cases hconn : link.conn = l.conn
    · exact ⟨l, by simp [insert, hconn], hconn.symm⟩
    · by_cases hlt : link.conn.number < l.conn.number
      · exact ⟨link, by simp [insert, hconn, hlt], rfl⟩
      · obtain ⟨m, hm, heq⟩ := ih
        exact ⟨m, by simp [insert, hconn, hlt, hm], heq⟩

/-- A link that is there stays there. -/
theorem mem_insert_of_mem {link l : Link} {links : List Link} (h : l ∈ links) :
    l ∈ link.insert links := by
  induction links with
  | nil => simp at h
  | cons m rest ih =>
    rw [insert]
    split
    · exact h
    · split
      · exact List.mem_cons_of_mem _ h
      · rcases List.mem_cons.mp h with heq | hrest
        · exact List.mem_cons.mpr (Or.inl heq)
        · exact List.mem_cons_of_mem _ (ih hrest)

/-- No other link comes in. -/
theorem eq_or_mem_of_mem_insert {link l : Link} {links : List Link} (h : l ∈ link.insert links) :
    l = link ∨ l ∈ links := by
  induction links with
  | nil => simpa [insert] using h
  | cons m rest ih =>
    rw [insert] at h
    split at h
    · exact Or.inr h
    · split at h
      · exact List.mem_cons.mp h
      · rcases List.mem_cons.mp h with heq | hrest
        · exact Or.inr (List.mem_cons.mpr (Or.inl heq))
        · rcases ih hrest with heq | hmem
          · exact Or.inl heq
          · exact Or.inr (List.mem_cons_of_mem _ hmem)

@[simp] theorem mem_remove {conn : ConnId} {l : Link} {links : List Link} :
    l ∈ remove conn links ↔ l ∈ links ∧ l.conn ≠ conn := by
  simp [remove]

end Link

theorem TrustEntry.unlink_unlink (conn : ConnId) (e : TrustEntry) :
    (e.unlink conn).unlink conn = e.unlink conn := by
  simp [unlink, Link.remove, List.filter_filter]

namespace Registry

theorem pair_of_get? {r : Registry} {pair : DomainPair} {e : TrustEntry}
    (h : r.get? pair = some e) : e.pair = pair := by
  simpa using List.find?_some h

theorem get?_alter_self {f : TrustEntry → TrustEntry} (hf : ∀ e, (f e).pair = e.pair)
    (r : Registry) (pair : DomainPair) : (r.alter pair f).get? pair = (r.get? pair).map f := by
  obtain ⟨entries⟩ := r
  simp only [get?, alter]
  induction entries with
  | nil => rfl
  | cons e rest ih =>
    by_cases he : e.pair = pair
    · simp [he, hf]
    · simp [he, ih]

theorem get?_alter_of_ne {f : TrustEntry → TrustEntry} (hf : ∀ e, (f e).pair = e.pair)
    (r : Registry) {pair other : DomainPair} (hne : other ≠ pair) :
    (r.alter pair f).get? other = r.get? other := by
  obtain ⟨entries⟩ := r
  simp only [get?, alter]
  induction entries with
  | nil => rfl
  | cons e rest ih =>
    by_cases he : e.pair = pair
    · have hother : ¬ pair = other := fun h => hne h.symm
      simp [he, hf, hother, ih]
    · by_cases ho : e.pair = other
      · simp [ho, hne]
      · simp [he, ho, ih]

@[simp] theorem get?_erase_self (r : Registry) (pair : DomainPair) :
    (r.erase pair).get? pair = none := by
  simp [get?, erase]

theorem get?_erase_of_ne (r : Registry) {pair other : DomainPair} (hne : other ≠ pair) :
    (r.erase pair).get? other = r.get? other := by
  obtain ⟨entries⟩ := r
  simp only [get?, erase, List.find?_filter]
  congr 1
  funext e
  by_cases ho : e.pair = other
  · simp [ho, hne]
  · simp [ho]

theorem get?_ensure_self (r : Registry) (pair : DomainPair) :
    (r.ensure pair).get? pair = some ((r.get? pair).getD { pair := pair }) := by
  cases h : r.get? pair with
  | some e => simp [ensure, h]
  | none =>
    simp only [ensure, h]
    simp only [get?] at h ⊢
    simp [h]

theorem get?_ensure_of_ne (r : Registry) {pair other : DomainPair} (hne : other ≠ pair) :
    (r.ensure pair).get? other = r.get? other := by
  have hother : ¬ pair = other := fun h => hne h.symm
  rw [ensure]
  split
  · rfl
  · simp [get?, List.find?_append, hother]

theorem get?_unlink_of_ne (r : Registry) (conn : ConnId) {pair other : DomainPair}
    (hne : other ≠ pair) : (r.unlink pair conn).get? other = r.get? other := by
  rw [unlink]
  split
  · rfl
  · split
    · exact get?_erase_of_ne r hne
    · exact get?_alter_of_ne (f := (·.unlink conn)) (fun _ => rfl) r hne

/-- An entry that loses a link stays if there is another one. -/
theorem get?_unlink_self (r : Registry) (pair : DomainPair) (conn : ConnId) :
    (r.unlink pair conn).get? pair =
      ((r.get? pair).map (·.unlink conn)).filter fun e => !e.links.isEmpty := by
  cases h : r.get? pair with
  | none => simp [unlink, h]
  | some e =>
    by_cases hlinks : (e.unlink conn).links.isEmpty
    · simp [unlink, h, hlinks, Option.filter]
    · simp only [unlink, h, hlinks, Bool.false_eq_true, if_false]
      rw [get?_alter_self (f := (·.unlink conn)) (fun _ => rfl), h]
      simp [hlinks, Option.filter]

/-- What is left of a pair when a connection has left some pairs: to leave a pair twice is to leave
it once. -/
theorem get?_foldl_unlink (joined : List DomainPair) (conn : ConnId) (r : Registry)
    (pair : DomainPair) :
    (joined.foldl (fun r pair => r.unlink pair conn) r).get? pair =
      if pair ∈ joined then
        ((r.get? pair).map (·.unlink conn)).filter fun e => !e.links.isEmpty
      else r.get? pair := by
  induction joined generalizing r with
  | nil => simp
  | cons other rest ih =>
    rw [List.foldl_cons, ih]
    by_cases hpair : pair = other
    · subst hpair
      simp only [get?_unlink_self, List.mem_cons, true_or, if_true]
      cases r.get? pair with
      | none => simp
      | some e =>
        by_cases hlinks : (e.unlink conn).links.isEmpty
        · simp [Option.filter, hlinks]
        · simp [Option.filter, hlinks, TrustEntry.unlink_unlink]
    · simp only [get?_unlink_of_ne r conn hpair, List.mem_cons, hpair, false_or]

end Registry

end Federation
