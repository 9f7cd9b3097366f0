import Federation.Node.Basic
import Federation.Proofs.Domain.Canonical
import Federation.Registry.Lemmas
import Mathlib.Data.List.Nodup

/-!
Access to the registry. A pair that is stored is found in the spelling of the caller, without a
check; any other one is checked and then looked up in its canonical form. The short way and the long
way agree in every registry that was filled through them: only pairs that the check has returned are
stored, each of them once, and such a pair is its own canonical form.
-/

namespace Federation

namespace Registry

inductive Call where
  | getOrCreate (pair : DomainPair) (create : Bool)
  | entry (pair : DomainPair)
  /-- A connection becomes a link of the entry that is stored for a pair. -/
  | join (pair : DomainPair) (side : Role) (link : Link)
  | authenticate (pair : DomainPair)
  | leave (joined : List DomainPair) (conn : ConnId)

def perform (isServed : String → Bool) (r : Registry) : Call → Registry
  | .getOrCreate pair create =>
    match r.getOrCreate isServed pair create with
    | .ok (_, r) => r
    | .error _ => r
  | .entry pair =>
    match r.entry isServed pair with
    | .ok (_, r) => r
    | .error _ => r
  | .join pair .inbound link => r.alter pair (·.addIncoming link)
  | .join pair .outbound link => r.alter pair (·.addOutgoing link)
  | .authenticate pair => r.alter pair TrustEntry.authenticate
  | .leave joined conn => joined.foldl (fun r pair => r.unlink pair conn) r

def after (isServed : String → Bool) (calls : List Call) : Registry :=
  calls.foldl (perform isServed) {}

/-- Every entry stands under a canonical pair, and no two under the same one. -/
structure WellKeyed (isServed : String → Bool) (r : Registry) : Prop where
  isCanonical : ∀ e ∈ r.entries, e.pair.IsCanonical isServed
  nodup : (r.entries.map (·.pair)).Nodup

/-- What access to a canonical pair gives: the entry that is stored for it, or a new one if one may
be made. It is the only entry of the pair then, and no other pair notices. -/
structure Gives (r : Registry) (p : DomainPair) (create : Bool) (found : Option TrustEntry)
    (s : Registry) : Prop where
  stored : ∀ e, r.get? p = some e → found = some e ∧ s = r
  made : r.get? p = none → create → found = some { pair := p } ∧
    s = ⟨r.entries ++ [{ pair := p }]⟩
  absent : r.get? p = none → ¬ create → found = none ∧ s = r
  own : ∀ e, found = some e → e.pair = p ∧ ∀ f, f ∈ s.entries ∧ f.pair = p ↔ f = e
  others : ∀ q, q ≠ p → s.get? q = r.get? q

variable {isServed : String → Bool} {r : Registry}

theorem mem_of_get? {p : DomainPair} {e : TrustEntry} (h : r.get? p = some e) : e ∈ r.entries :=
  List.mem_of_find?_eq_some h

theorem pair_ne_of_get?_eq_none {p : DomainPair} (h : r.get? p = none) {e : TrustEntry}
    (he : e ∈ r.entries) : e.pair ≠ p := by
  have hnone := List.find?_eq_none.mp h e he
  simpa using hnone

/-- If only canonical pairs are stored, the short way over a stored pair leads where
the check leads. -/
theorem canonical_eq_checked (h : ∀ p, (r.get? p).isSome → p.IsCanonical isServed)
    (pair : DomainPair) :
    r.canonical isServed pair = DomainPair.checked pair.own pair.peer isServed := by
  unfold canonical
  split
  · rename_i hstored
    exact (h pair hstored).symm
  · rfl

theorem map_pair_alter {f : TrustEntry → TrustEntry} (hf : ∀ e, (f e).pair = e.pair) (r : Registry)
    (p : DomainPair) : (r.alter p f).entries.map (·.pair) = r.entries.map (·.pair) := by
  rw [alter, List.map_map]
  refine List.map_congr_left fun e _ => ?_
  simp only [Function.comp_apply]
  split
  · exact hf e
  · rfl

namespace WellKeyed

theorem empty : WellKeyed isServed {} :=
  ⟨fun _ he => absurd he List.not_mem_nil, List.nodup_nil⟩

/-- Only the pairs of the entries matter. -/
theorem of_map_pair {s : Registry} (h : WellKeyed isServed r)
    (hsub : (s.entries.map (·.pair)).Sublist (r.entries.map (·.pair))) : WellKeyed isServed s := by
  refine ⟨fun e he => ?_, h.nodup.sublist hsub⟩
  obtain ⟨d, hd, hpair⟩ := List.mem_map.mp (hsub.subset (List.mem_map_of_mem he))
  exact hpair ▸ h.isCanonical d hd

theorem alter (h : WellKeyed isServed r) {f : TrustEntry → TrustEntry}
    (hf : ∀ e, (f e).pair = e.pair) (p : DomainPair) : WellKeyed isServed (r.alter p f) :=
  h.of_map_pair (map_pair_alter hf r p ▸ List.Sublist.refl _)

theorem erase (h : WellKeyed isServed r) (p : DomainPair) : WellKeyed isServed (r.erase p) :=
  h.of_map_pair (List.filter_sublist.map _)

theorem unlink (h : WellKeyed isServed r) (p : DomainPair) (conn : ConnId) :
    WellKeyed isServed (r.unlink p conn) := by
  rw [Registry.unlink]
  split
  · exact h
  · split
    · exact h.erase p
    · exact h.alter (f := (·.unlink conn)) (fun _ => rfl) p

theorem leave (h : WellKeyed isServed r) (joined : List DomainPair) (conn : ConnId) :
    WellKeyed isServed (joined.foldl (fun r pair => r.unlink pair conn) r) := by
  induction joined generalizing r with
  | nil => exact h
  | cons p rest ih => exact ih (h.unlink p conn)

theorem ensure (h : WellKeyed isServed r) {p : DomainPair} (hp : p.IsCanonical isServed) :
    WellKeyed isServed (r.ensure p) := by
  cases hget : r.get? p with
  | some e => simpa [Registry.ensure, hget] using h
  | none =>
    simp only [Registry.ensure, hget, Option.isSome_none, Bool.false_eq_true, if_false]
    refine ⟨fun e he => ?_, ?_⟩
    · rcases List.mem_append.mp he with hold | hnew
      · exact h.isCanonical e hold
      · rw [List.mem_singleton.mp hnew]
        exact hp
    · rw [List.map_append, List.map_singleton, List.nodup_append]
      refine ⟨h.nodup, List.nodup_singleton p, fun q hq q' hq' => ?_⟩
      obtain ⟨e, he, rfl⟩ := List.mem_map.mp hq
      rw [List.mem_singleton.mp hq']
      exact pair_ne_of_get?_eq_none hget he

theorem isCanonical_of_get? (h : WellKeyed isServed r) {p : DomainPair} {e : TrustEntry}
    (hget : r.get? p = some e) : p.IsCanonical isServed :=
  pair_of_get? hget ▸ h.isCanonical e (mem_of_get? hget)

theorem canonical_eq (h : WellKeyed isServed r) (pair : DomainPair) :
    r.canonical isServed pair = DomainPair.checked pair.own pair.peer isServed := by
  refine canonical_eq_checked (fun p hp => ?_) pair
  obtain ⟨e, he⟩ := Option.isSome_iff_exists.mp hp
  exact h.isCanonical_of_get? he

/-- An entry is the only one of its pair. -/
theorem eq_of_pair_eq (h : WellKeyed isServed r) {e f : TrustEntry} (he : e ∈ r.entries)
    (hf : f ∈ r.entries) (hpair : e.pair = f.pair) : e = f :=
  List.inj_on_of_nodup_map h.nodup he hf hpair

end WellKeyed

section Access

variable {p : DomainPair}

/-- Access gives what it should in a registry whose keys are in order. -/
theorem WellKeyed.gives (h : WellKeyed isServed r) (hp : p.IsCanonical isServed) (create : Bool) :
    r.Gives p create ((if create then r.ensure p else r).get? p)
      (if create then r.ensure p else r) := by
  have hs : WellKeyed isServed (if create then r.ensure p else r) := by
    split
    · exact h.ensure hp
    · exact h
  refine ⟨fun e he => ?_, fun hnone hcreate => ?_, fun hnone hcreate => ?_, fun e he => ?_,
    fun q hq => ?_⟩
  · have hsame : r.ensure p = r := by simp [Registry.ensure, he]
    cases create <;> simp [hsame, he]
  · have hnew : r.ensure p = ⟨r.entries ++ [{ pair := p }]⟩ := by
      simp [Registry.ensure, hnone]
    rw [if_pos hcreate, get?_ensure_self, hnone]
    exact ⟨rfl, hnew⟩
  · rw [if_neg hcreate]
    exact ⟨hnone, rfl⟩
  · have hpair := pair_of_get? he
    refine ⟨hpair, fun f => ⟨?_, ?_⟩⟩
    · rintro ⟨hf, hfp⟩
      exact hs.eq_of_pair_eq hf (mem_of_get? he) (hfp.trans hpair.symm)
    · rintro rfl
      exact ⟨mem_of_get? he, hpair⟩
  · cases create with
    | false => rfl
    | true => exact get?_ensure_of_ne r hq

theorem WellKeyed.getOrCreate_of_error (h : WellKeyed isServed r) {pair : DomainPair}
    {error : DomainError} (hcheck : DomainPair.checked pair.own pair.peer isServed = .error error)
    (create : Bool) : r.getOrCreate isServed pair create = .error error := by
  simp only [getOrCreate, h.canonical_eq, hcheck]

theorem WellKeyed.getOrCreate_of_checked (h : WellKeyed isServed r) {pair : DomainPair}
    (hcheck : DomainPair.checked pair.own pair.peer isServed = .ok p) (create : Bool) :
    r.getOrCreate isServed pair create = .ok ((if create then r.ensure p else r).get? p,
      if create then r.ensure p else r) := by
  simp only [getOrCreate, h.canonical_eq, hcheck]

theorem WellKeyed.entry_of_error (h : WellKeyed isServed r) {pair : DomainPair}
    {error : DomainError} (hcheck : DomainPair.checked pair.own pair.peer isServed = .error error) :
    r.entry isServed pair = .error error := by
  simp only [Registry.entry, h.getOrCreate_of_error hcheck]

/-- There always is an entry to give. -/
theorem WellKeyed.entry_of_checked (h : WellKeyed isServed r) {pair : DomainPair}
    (hcheck : DomainPair.checked pair.own pair.peer isServed = .ok p) :
    r.entry isServed pair = .ok ((r.get? p).getD { pair := p }, r.ensure p) := by
  simp only [Registry.entry, h.getOrCreate_of_checked hcheck, if_true, get?_ensure_self]

end Access

theorem WellKeyed.perform (h : WellKeyed isServed r) (call : Call) :
    WellKeyed isServed (r.perform isServed call) := by
  cases call with
  | getOrCreate pair create =>
    cases hcheck : DomainPair.checked pair.own pair.peer isServed with
    | error e => simpa only [Registry.perform, h.getOrCreate_of_error hcheck] using h
    | ok p =>
      simp only [Registry.perform, h.getOrCreate_of_checked hcheck]
      split
      · exact h.ensure (DomainPair.isCanonical_of_checked hcheck)
      · exact h
  | entry pair =>
    cases hcheck : DomainPair.checked pair.own pair.peer isServed with
    | error e => simpa only [Registry.perform, h.entry_of_error hcheck] using h
    | ok p =>
      simp only [Registry.perform, h.entry_of_checked hcheck]
      exact h.ensure (DomainPair.isCanonical_of_checked hcheck)
  | join pair side link =>
    cases side with
    | inbound => exact h.alter (f := (·.addIncoming link)) (fun _ => rfl) pair
    | outbound => exact h.alter (f := (·.addOutgoing link)) (fun _ => rfl) pair
  | authenticate pair => exact h.alter (f := TrustEntry.authenticate) (fun _ => rfl) pair
  | leave joined conn => exact h.leave joined conn

theorem wellKeyed_foldl_perform (h : WellKeyed isServed r) (calls : List Call) :
    WellKeyed isServed (calls.foldl (Registry.perform isServed) r) := by
  induction calls generalizing r with
  | nil => exact h
  | cons call rest ih => exact ih (h.perform call)

theorem wellKeyed_after (isServed : String → Bool) (calls : List Call) :
    WellKeyed isServed (after isServed calls) :=
  wellKeyed_foldl_perform .empty calls

/-- Whatever was called before, access to a pair fails just as the check of it fails, and otherwise
gives what is stored for its canonical form, or a new entry if one may be made. So a pair that is
found without a check passes it, an entry that must be there is there, spellings that the check
leads to one pair lead to one entry, and no two entries stand under pairs that it leads to one. -/
theorem access_agrees_with_check (isServed : String → Bool) (calls : List Call) :
    (∀ pair create, match DomainPair.checked pair.own pair.peer isServed with
      | .error error => (after isServed calls).getOrCreate isServed pair create = .error error ∧
        (after isServed calls).entry isServed pair = .error error
      | .ok p => (∃ found s, (after isServed calls).getOrCreate isServed pair create =
          .ok (found, s) ∧ (after isServed calls).Gives p create found s) ∧
        ∃ e s, (after isServed calls).entry isServed pair = .ok (e, s) ∧
          (after isServed calls).Gives p true (some e) s) ∧
    (∀ pair e, (after isServed calls).get? pair = some e →
      DomainPair.checked pair.own pair.peer isServed = .ok pair) ∧
    (∀ pair other p, DomainPair.checked pair.own pair.peer isServed = .ok p →
      DomainPair.checked other.own other.peer isServed = .ok p → ∀ create,
        (after isServed calls).getOrCreate isServed pair create =
          (after isServed calls).getOrCreate isServed other create) ∧
    ∀ e f p, e ∈ (after isServed calls).entries → f ∈ (after isServed calls).entries →
      DomainPair.checked e.pair.own e.pair.peer isServed = .ok p →
        DomainPair.checked f.pair.own f.pair.peer isServed = .ok p → e = f := by
  have h := wellKeyed_after isServed calls
  refine ⟨fun pair create => ?_, fun pair e he => h.isCanonical_of_get? he,
    fun pair other p hpair hother create => ?_, fun e f p he hf hep hfp => ?_⟩
  · cases hcheck : DomainPair.checked pair.own pair.peer isServed with
    | error error => exact ⟨h.getOrCreate_of_error hcheck create, h.entry_of_error hcheck⟩
    | ok p =>
      have hp := DomainPair.isCanonical_of_checked hcheck
      have hgives := h.gives hp true
      rw [if_pos rfl, get?_ensure_self] at hgives
      exact ⟨⟨_, _, h.getOrCreate_of_checked hcheck create, h.gives hp create⟩,
        _, _, h.entry_of_checked hcheck, hgives⟩
  · rw [h.getOrCreate_of_checked hpair, h.getOrCreate_of_checked hother]
  · have hown : e.pair = p := Except.ok.inj ((h.isCanonical e he).symm.trans hep)
    have hown' : f.pair = p := Except.ok.inj ((h.isCanonical f hf).symm.trans hfp)
    exact h.eq_of_pair_eq he hf (hown.trans hown'.symm)

/-- Two spellings with a root dot lead to one entry, and a domain that is not served to none. -/
theorem access_agrees_with_check_of_two_spellings :
    let isServed := fun domain => domain == "b.example"
    let p : DomainPair := ⟨"b.example", "a.example"⟩
    let r := after isServed [.entry ⟨"B.example", "a.example."⟩,
      .join p .inbound ⟨⟨1⟩, 0⟩, .authenticate p]
    DomainPair.checked "b.example." "A.example" isServed = .ok p ∧
    (∃ e, r.get? p = some e ∧ r.getOrCreate isServed ⟨"b.example.", "A.example"⟩ true =
      .ok (some e, r) ∧ e.pair = p) ∧
    DomainPair.checked "x.example" "a.example" isServed = .error (.notLocal "x.example") ∧
    r.entry isServed ⟨"x.example", "a.example"⟩ = .error (.notLocal "x.example") := by
  intro isServed p r
  have hspelled : DomainPair.checked "b.example." "A.example" isServed = .ok p := by
    decide +kernel
  have hrefused : DomainPair.checked "x.example" "a.example" isServed =
      .error (.notLocal "x.example") := by decide +kernel
  have hstored : (r.get? p).isSome := by decide +kernel
  obtain ⟨e, he⟩ := Option.isSome_iff_exists.mp hstored
  obtain ⟨haccess, -⟩ := access_agrees_with_check isServed [.entry ⟨"B.example", "a.example."⟩,
    .join p .inbound ⟨⟨1⟩, 0⟩, .authenticate p]
  have hfound := haccess ⟨"b.example.", "A.example"⟩ true
  have hnone := haccess ⟨"x.example", "a.example"⟩ true
  simp only [hspelled] at hfound
  simp only [hrefused] at hnone
  obtain ⟨⟨found, s, hgot, hgives⟩, -⟩ := hfound
  obtain ⟨rfl, rfl⟩ := hgives.stored e he
  exact ⟨hspelled, ⟨e, he, hgot, (hgives.own e rfl).1⟩, hrefused, hnone.2⟩

end Registry

/-- A node that needs the entry of a pair has the registry give it. -/
theorem Node.entry_eq_registry {τ : Type} (n : Node τ) (pair : DomainPair) :
    n.entry pair = match n.registry.entry n.directory.isServed pair with
      | .error e => (.error e, n)
      | .ok (e, r) => (.ok e.pair, { n with registry := r }) := by
  unfold Node.entry Registry.entry Registry.getOrCreate
  cases n.registry.canonical n.directory.isServed pair with
  | error e => rfl
  | ok p =>
    have hown := Registry.get?_ensure_self n.registry p
    cases hget : n.registry.get? p with
    | none => simp [hown, hget]
    | some e => simp [hown, hget, Registry.pair_of_get? hget]

end Federation
