import Federation.Node.Stream
import Federation.Proofs.Domain.Canonical

/-!
The ways to a pair of domains. A pair to be opened and the pair of a stream header are checked,
which drops a root dot; the pair that the addressing of a stanza spells is only lowered, which keeps
it. So the ways lead to one pair just if neither domain is written with a root dot, and the check of
the spelled pair leads there in any case.
-/

namespace Federation

namespace Domain

open Federation.Text

/-- Also before it is brought into canonical form, a name holds none of the signs that
part an address. -/
theorem part_of_normalize {domain name : String} (h : normalize domain = .ok name) :
    part domain = domain := by
  refine part_eq_self fun x hx hmem => ?_
  have hsigns : ∀ x ∈ ['@', '/'], x.toLower = x ∧ x ≠ '.' := by
    rw [List.forall_mem_cons, List.forall_mem_singleton]
    decide
  obtain ⟨hlower, hdot⟩ := hsigns x hx
  exact address_sign_not_mem_canonical (normalize_eq_ok h) hx (mem_of_normalize h hlower hdot hmem)

/-- A name in lowercase has the canonical form of the name. -/
theorem normalize_lower {domain name : String} (h : normalize domain = .ok name) :
    normalize (lower domain) = .ok name :=
  normalize_of_lower_eq h (lower_lower domain)

end Domain

namespace DomainPair

open Federation.Text

variable {isServed : String → Bool} {recipient sender : String} {pair : DomainPair}

theorem checked_ofTexts (h : checked recipient sender isServed = .ok pair) :
    checked (ofTexts recipient sender).own (ofTexts recipient sender).peer isServed = .ok pair := by
  obtain ⟨hown, hpeer, hserved⟩ := checked_eq_ok_iff.mp h
  exact checked_eq_ok_iff.mpr
    ⟨Domain.normalize_lower hown, Domain.normalize_lower hpeer, hserved⟩

/-- Domains that can be checked are addresses of themselves. -/
theorem ofAddresses_of_checked (h : checked recipient sender isServed = .ok pair) :
    ofAddresses recipient sender = ofTexts recipient sender := by
  obtain ⟨hown, hpeer, -⟩ := checked_eq_ok_iff.mp h
  rw [ofAddresses, Domain.part_of_normalize hown, Domain.part_of_normalize hpeer]

theorem ofTexts_of_checked (h : checked recipient sender isServed = .ok pair) :
    ofTexts recipient sender =
      ⟨pair.own ++ Domain.rootDot recipient, pair.peer ++ Domain.rootDot sender⟩ := by
  obtain ⟨hown, hpeer, -⟩ := checked_eq_ok_iff.mp h
  rw [ofTexts, Domain.lower_eq_append_rootDot hown, Domain.lower_eq_append_rootDot hpeer]

theorem ofTexts_eq_iff (h : checked recipient sender isServed = .ok pair) :
    ofTexts recipient sender = pair ↔
      Domain.rootDot recipient = "" ∧ Domain.rootDot sender = "" := by
  obtain ⟨own, peer⟩ := pair
  rw [ofTexts_of_checked h, mk.injEq, String.append_eq_left_iff, String.append_eq_left_iff]

/-- The check gives a pair back just if it is in lowercase and has no root dots. -/
theorem eq_iff_of_checked {spelled : DomainPair}
    (h : checked spelled.own spelled.peer isServed = .ok pair) :
    spelled = pair ↔ lower spelled.own = spelled.own ∧ lower spelled.peer = spelled.peer ∧
      Domain.rootDot spelled.own = "" ∧ Domain.rootDot spelled.peer = "" := by
  have hpair := isCanonical_of_checked h
  constructor
  · intro hsame
    have hlower : ofTexts spelled.own spelled.peer = pair := by
      rw [hsame, ofTexts, hpair.lower_own, hpair.lower_peer]
    obtain ⟨hown, hpeer⟩ := (ofTexts_eq_iff h).mp hlower
    exact ⟨hsame ▸ hpair.lower_own, hsame ▸ hpair.lower_peer, hown, hpeer⟩
  · rintro ⟨hown, hpeer, hdots⟩
    rw [← (ofTexts_eq_iff h).mpr hdots, ofTexts, hown, hpeer]

end DomainPair

namespace Node

variable {τ : Type}

/-- The header of a peer is refused if its recipient is not served in the very spelling of the
header, and names the checked pair otherwise. -/
theorem headerPair_of_checked {n : Node τ} {recipient sender : String} {pair : DomainPair}
    (h : DomainPair.checked recipient sender n.directory.isServed = .ok pair)
    {header : StreamHeader} (hto : header.recipient = some recipient)
    (hfrom : header.sender = some sender) :
    n.headerPair header =
      if n.directory.isServed (Text.lower recipient) then .ok (some pair)
      else .error (.notLocal recipient) := by
  obtain ⟨hown, hpeer, -⟩ := DomainPair.checked_eq_ok_iff.mp h
  simp only [headerPair, hto, hfrom, Option.map_some, Domain.part_of_normalize hown,
    Domain.part_of_normalize hpeer, h]
  by_cases hserved : n.directory.isServed (Text.lower recipient) <;> simp [hserved, Except.map]

end Node

namespace DomainPair

open Federation.Text

/-- Two domains of which the first is served and the second not name one pair when they are checked,
as they stand, in lowercase as a caller gives them, as the addresses of a stream header or as those
of a stanza. The pair that the stanza itself spells is this one just if neither domain has a root
dot; else it has the dots at its ends. -/
theorem derivations_agree_iff_no_root_dot {recipient sender : String} {isServed : String → Bool}
    {pair : DomainPair} (h : checked recipient sender isServed = .ok pair) :
    (ofAddresses recipient sender = pair ↔
      Domain.rootDot recipient = "" ∧ Domain.rootDot sender = "") ∧
    ofAddresses recipient sender =
      ⟨pair.own ++ Domain.rootDot recipient, pair.peer ++ Domain.rootDot sender⟩ ∧
    checked (ofTexts recipient sender).own (ofTexts recipient sender).peer isServed = .ok pair ∧
    checked (ofAddresses recipient sender).own (ofAddresses recipient sender).peer isServed =
      .ok pair ∧
    ∀ {τ : Type} (n : Node τ) (header : StreamHeader), n.directory.isServed = isServed →
      header.recipient = some recipient → header.sender = some sender →
        n.headerPair header =
          if isServed (lower recipient) then .ok (some pair) else .error (.notLocal recipient) := by
  have hspelled := ofAddresses_of_checked h
  rw [hspelled]
  refine ⟨ofTexts_eq_iff h, ofTexts_of_checked h, checked_ofTexts h, checked_ofTexts h, ?_⟩
  rintro τ n header rfl hto hfrom
  exact Node.headerPair_of_checked h hto hfrom

/-- A recipient with a root dot: the pair is checked, and a stanza to it spells another one. -/
theorem derivations_agree_iff_no_root_dot_of_dotted_recipient :
    let isServed := fun domain => domain == "b.example"
    let pair : DomainPair := ⟨"b.example", "a.example"⟩
    checked "B.example." "a.example" isServed = .ok pair ∧
    ofAddresses "B.example." "a.example" = ⟨"b.example.", "a.example"⟩ ∧
    ofAddresses "B.example." "a.example" ≠ pair ∧
    checked "b.example." "a.example" isServed = .ok pair := by
  intro isServed pair
  have hchecked : checked "B.example." "a.example" isServed = .ok pair := by decide +kernel
  obtain ⟨hagree, hspelled, -, hread, -⟩ := derivations_agree_iff_no_root_dot hchecked
  have hdots : Domain.rootDot "B.example." = "." ∧ Domain.rootDot "a.example" = "" := by decide
  have hdotted : ofAddresses "B.example." "a.example" = ⟨"b.example.", "a.example"⟩ := by
    rw [hspelled, hdots.1, hdots.2]
    decide
  rw [hdotted] at hread
  refine ⟨hchecked, hdotted, fun heq => ?_, hread⟩
  have hnone := (hagree.mp heq).1
  rw [hdots.1] at hnone
  exact absurd hnone (by decide)

end DomainPair

end Federation
