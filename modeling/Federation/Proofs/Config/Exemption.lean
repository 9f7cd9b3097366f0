import Federation.Proofs.Directory.Listing
import Federation.Proofs.Node.Tls
import Federation.Transport.Simulated

/-!
The hosts that a configuration exempts from TLS. The check of a configuration reads each of them as
a domain name, which may have a root dot; a node only compares them in lowercase, which keeps the
dot. So a host exempts its domain in exactly those spellings that have a root dot if it has one
itself, and never the canonical form if it has one.
-/

namespace Federation

namespace Domain

/-- A canonical name has no root dot. -/
theorem rootDot_of_normalize {domain name : String} (h : normalize domain = .ok name) :
    rootDot name = "" := by
  have hlower := lower_eq_append_rootDot (normalize_idempotent h)
  rw [lower_normalize h] at hlower
  exact String.append_eq_left_iff.mp hlower.symm

/-- Two spellings of one domain are alike but for the case of their letters if both have a root dot
or neither has one. -/
theorem lower_eq_iff_rootDot {domain other name : String} (h : normalize domain = .ok name) :
    Text.lower other = Text.lower domain ↔
      normalize other = .ok name ∧ rootDot other = rootDot domain := by
  constructor
  · intro hlower
    have hother := normalize_of_lower_eq h hlower
    refine ⟨hother, ?_⟩
    rw [lower_eq_append_rootDot hother, lower_eq_append_rootDot h] at hlower
    exact (String.append_right_inj name).mp hlower
  · rintro ⟨hother, hdot⟩
    rw [lower_eq_append_rootDot hother, lower_eq_append_rootDot h, hdot]

end Domain

namespace Config

/-- Hosts that pass the check are domain names. -/
theorem hostFault?_eq_none_iff {hosts : List String} :
    hostFault? hosts = none ↔ ∀ host ∈ hosts, ∃ name, Domain.normalize host = .ok name := by
  induction hosts with
  | nil => simp [hostFault?]
  | cons host rest ih =>
    rw [hostFault?, List.forall_mem_cons]
    cases hname : Domain.normalize host with
    | error e => simp
    | ok name => simp [ih]

variable {τ : Type} [Transport τ]

/-- The peers that a node treats as exempt, at any time, are those of which the very spelling is
listed, in any case. -/
theorem skipsTls_after_iff (c : Config) (directory : Directory) (transport : τ) (issued : Nat)
    (identify : Nat → String) (past : List (Occurrence τ)) (peer : String) :
    ((Setup.mk c.trust.settings directory transport issued identify).after past).skipsTls peer ↔
      ∃ host ∈ c.trust.skipTlsHosts, Text.lower host = Text.lower peer := by
  set setup := Setup.mk c.trust.settings directory transport issued identify
  have hstart : (setup.after past).skipsTls peer =
      (setup.settings.skipTlsHosts.map Text.lower).contains (Text.lower peer) := by
    rw [← setup.skipsTls_start, Node.skipsTls, Node.skipsTls, setup.settings_after past]
  rw [hstart, List.contains_iff_mem, List.mem_map]
  exact exists_congr fun host => and_congr_left fun _ => List.mem_eraseDups

/-- Every host that a checked configuration exempts from TLS is a domain name. A node of this
configuration exempts a domain, in any spelling of it and at any time, if a host of the same
canonical form is listed that has a root dot just if the spelling has one. So the canonical form
itself is exempt if a host without a root dot stands for it, and hosts with one do not count. -/
theorem exempt_iff_listed_without_root_dot {c : Config} (h : c.validate = .ok ())
    (directory : Directory) (transport : τ) (issued : Nat) (identify : Nat → String)
    (past : List (Occurrence τ)) :
    let n := (Setup.mk c.trust.settings directory transport issued identify).after past
    (∀ host ∈ c.trust.skipTlsHosts, ∃ name, Domain.normalize host = .ok name) ∧
    (∀ domain name, Domain.normalize domain = .ok name →
      (n.skipsTls domain ↔ ∃ host ∈ c.trust.skipTlsHosts,
        Domain.normalize host = .ok name ∧ Domain.rootDot host = Domain.rootDot domain)) ∧
    ∀ name, Domain.normalize name = .ok name →
      (n.skipsTls name ↔ ∃ host ∈ c.trust.skipTlsHosts,
        Domain.normalize host = .ok name ∧ Domain.rootDot host = "") := by
  intro n
  have hspelled : ∀ domain name, Domain.normalize domain = .ok name →
      (n.skipsTls domain ↔ ∃ host ∈ c.trust.skipTlsHosts,
        Domain.normalize host = .ok name ∧ Domain.rootDot host = Domain.rootDot domain) := by
    intro domain name hname
    rw [c.skipsTls_after_iff directory transport issued identify past domain]
    exact exists_congr fun host => and_congr_right fun _ => Domain.lower_eq_iff_rootDot hname
  refine ⟨hostFault?_eq_none_iff.mp (validate_eq_ok_iff.mp h).2.2, hspelled, fun name hname => ?_⟩
  rw [hspelled name name hname, Domain.rootDot_of_normalize hname]

/-- Of two hosts that pass the check, the one with a root dot exempts nobody who is
named without it. -/
theorem exempt_iff_listed_without_root_dot_of_dotted_host :
    let c : Config := { trust := { skipTlsHosts := ["Legacy.Example", "old.example."] } }
    let setup : Setup Simulated := ⟨c.trust.settings, .exact [], {}, 0, identifierText⟩
    let n := setup.after []
    c.validate = .ok () ∧
      Domain.normalize "old.example" = .ok "old.example" ∧
      Domain.normalize "old.example." = .ok "old.example" ∧
      n.skipsTls "legacy.example" = true ∧ n.skipsTls "old.example" = false ∧
      n.skipsTls "OLD.example." = true := by
  intro c setup n
  have hvalid : c.validate = .ok () := by decide +kernel
  have hnames : Domain.normalize "legacy.example" = .ok "legacy.example" ∧
      Domain.normalize "Legacy.Example" = .ok "legacy.example" ∧
      Domain.normalize "old.example" = .ok "old.example" ∧
      Domain.normalize "old.example." = .ok "old.example" ∧
      Domain.normalize "OLD.example." = .ok "old.example" := by decide +kernel
  obtain ⟨hlegacy, hlisted, hold, hdotted, hspelled⟩ := hnames
  obtain ⟨-, hspelling, hcanonical⟩ :=
    exempt_iff_listed_without_root_dot hvalid (.exact []) ({} : Simulated) 0 identifierText []
  refine ⟨hvalid, hold, hdotted, ?_, ?_, ?_⟩
  · exact (hcanonical _ hlegacy).mpr ⟨_, List.mem_cons_self, hlisted, by decide⟩
  · rw [Bool.eq_false_iff, ne_eq, hcanonical _ hold]
    rintro ⟨host, hhost, hname, hdot⟩
    rw [List.mem_cons, List.mem_singleton] at hhost
    rcases hhost with rfl | rfl
    · exact absurd (Except.ok.inj (hlisted.symm.trans hname)) (by decide)
    · exact absurd hdot (by decide)
  · refine (hspelling _ _ hspelled).mpr ⟨"old.example.", by simp [c], hdotted, by decide⟩

end Config

end Federation
