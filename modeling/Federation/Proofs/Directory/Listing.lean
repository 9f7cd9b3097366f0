import Federation.Config.Reading
import Federation.Directory.Table
import Federation.Proofs.Domain.Canonical
import Mathlib.Data.List.Nodup

/-!
The directory of a configuration that has been validated. The check and the table bring the listed
names into canonical form one by one, each for itself; names that the check finds distinct are never
put in place of one another. So every listed domain has an entry of its own, with its own secret and
its own policy, and nothing else has one.
-/

namespace Federation

namespace DomainConfig

/-- Whether a listed domain brings no secret, or an empty one. -/
def lacksSecret (d : DomainConfig) : Bool :=
  d.secret.getD "" == ""

def secretOr (d : DomainConfig) (generated : String) : String :=
  if d.lacksSecret then generated else d.secret.getD ""

def entry (d : DomainConfig) (identify : Nat → String) (issued : Nat) (name : String) :
    ServedDomain :=
  ⟨name, d.secretOr (identify (issued + 1)), d.tlsRequired⟩

end DomainConfig

namespace Config

/-- Domains that pass the check have canonical names, all of them distinct and none seen before. -/
theorem exists_names {domains : List DomainConfig} {seen : List String}
    (h : domainFault? seen domains = none) :
    ∃ names : List String, domains.map (fun d => Domain.normalize d.name) = names.map .ok ∧
      names.Nodup ∧ ∀ name ∈ names, name ∉ seen := by
  induction domains generalizing seen with
  | nil => exact ⟨[], rfl, List.nodup_nil, by simp⟩
  | cons d rest ih =>
    rw [domainFault?] at h
    cases hname : Domain.normalize d.name with
    | error e => simp [hname] at h
    | ok name =>
      by_cases hseen : name ∈ seen
      · simp [hname, hseen] at h
      · have hrest : domainFault? (name :: seen) rest = none := by simpa [hname, hseen] using h
        obtain ⟨names, hnames, hnodup, hfresh⟩ := ih hrest
        refine ⟨name :: names, by simp [hname, hnames], List.nodup_cons.mpr ⟨fun hin => ?_, hnodup⟩,
          List.forall_mem_cons.mpr ⟨hseen, fun other hother => ?_⟩⟩
        · exact hfresh name hin List.mem_cons_self
        · exact fun hold => hfresh other hother (List.mem_cons_of_mem name hold)

/-- A configuration passes the check if there is a timeout and neither list holds a fault. -/
theorem validate_eq_ok_iff {c : Config} :
    c.validate = .ok () ↔ c.trust.authTimeoutSecs ≠ 0 ∧ domainFault? [] c.domains = none ∧
      hostFault? c.trust.skipTlsHosts = none := by
  have hfault : c.validate = .ok () ↔ c.fault? = none := by
    unfold validate
    split <;> simp [*]
  rw [hfault, fault?]
  by_cases htimeout : c.trust.authTimeoutSecs = 0
  · simp [htimeout]
  · cases hdomains : domainFault? [] c.domains <;> simp [htimeout]

/-- What is loaded is what the source gives, as the environment changes it, if that
passes the check. -/
theorem load_eq_ok_iff {source : Source} {lookup : String → Option String} {c : Config} :
    load source lookup = .ok c ↔
      (∃ given, read source = .ok given ∧ c = given.withEnvironment lookup) ∧
        c.validate = .ok () := by
  constructor
  · intro h
    unfold load at h
    split at h
    · cases h
    · rename_i given hread
      simp only at h
      split at h
      · cases h
      · rename_i hvalid
        cases h
        exact ⟨⟨given, hread, rfl⟩, hvalid⟩
  · rintro ⟨⟨given, hread, rfl⟩, hvalid⟩
    simp only [load, hread, hvalid]

/-- So whatever holds of configurations that pass the check holds of those that are loaded. -/
theorem validate_of_load {source : Source} {lookup : String → Option String} {c : Config}
    (h : load source lookup = .ok c) : c.validate = .ok () :=
  (load_eq_ok_iff.mp h).2

theorem domainFault?_of_validate {c : Config} (h : c.validate = .ok ()) :
    domainFault? [] c.domains = none :=
  (validate_eq_ok_iff.mp h).2.1

end Config

namespace DomainTable

def entries (identify : Nat → String) (issued : Nat) :
    List DomainConfig → List String → List ServedDomain
  | d :: rest, name :: names =>
    d.entry identify issued name ::
      entries identify (issued + if d.lacksSecret then 1 else 0) rest names
  | _, _ => []

theorem issued_cons (issued : Nat) (d : DomainConfig) (rest : List DomainConfig) :
    issued + (if d.lacksSecret then 1 else 0) + rest.countP (·.lacksSecret) =
      issued + (d :: rest).countP (·.lacksSecret) := by
  rw [List.countP_cons]
  omega

variable (identify : Nat → String)

theorem map_name_entries {domains : List DomainConfig} {names : List String} (issued : Nat)
    (h : domains.length = names.length) :
    (entries identify issued domains names).map (·.name) = names := by
  induction domains generalizing names issued with
  | nil => rw [List.length_eq_zero_iff.mp h.symm]; rfl
  | cons d rest ih =>
    cases names with
    | nil => cases h
    | cons name names =>
      rw [entries, List.map_cons, ih _ (Nat.succ.inj h)]
      rfl

theorem entries_append {before : List DomainConfig} {names : List String} (issued : Nat)
    (h : before.length = names.length) (rest : List DomainConfig) (others : List String) :
    entries identify issued (before ++ rest) (names ++ others) =
      entries identify issued before names ++
        entries identify (issued + before.countP (·.lacksSecret)) rest others := by
  induction before generalizing names issued with
  | nil => rw [List.length_eq_zero_iff.mp h.symm]; rfl
  | cons d before ih =>
    cases names with
    | nil => cases h
    | cons name names =>
      rw [List.cons_append, List.cons_append, entries, ih _ (Nat.succ.inj h), issued_cons]
      rfl

variable {t : DomainTable}

theorem add_eq {d : DomainConfig} {name : String} (hname : Domain.normalize d.name = .ok name)
    (issued : Nat) :
    t.add identify issued d =
      .ok (t.insert (d.entry identify issued name), issued + if d.lacksSecret then 1 else 0) := by
  by_cases hsecret : d.secret.getD "" = "" <;>
    simp [add, hname, hsecret, DomainConfig.entry, DomainConfig.secretOr, DomainConfig.lacksSecret]

/-- A domain whose name is not there takes the place of no other. -/
theorem insert_of_fresh {d : ServedDomain} (h : d.name ∉ t.domains.map (·.name)) :
    t.insert d = ⟨t.domains ++ [d]⟩ := by
  have hkeep : t.domains.filter (·.name != d.name) = t.domains := by
    refine List.filter_eq_self.mpr fun other hother => bne_iff_ne.mpr fun hsame => h ?_
    exact List.mem_map.mpr ⟨other, hother, hsame⟩
  rw [insert, hkeep]

/-- Domains of distinct names that are not there are added one after the other. -/
theorem addAll_eq {domains : List DomainConfig} {names : List String}
    (hnames : domains.map (fun d => Domain.normalize d.name) = names.map .ok)
    (hnodup : names.Nodup) (hfresh : ∀ name ∈ names, name ∉ t.domains.map (·.name)) (issued : Nat) :
    t.addAll identify issued domains =
      .ok (⟨t.domains ++ entries identify issued domains names⟩,
        issued + domains.countP (·.lacksSecret)) := by
  induction domains generalizing names t issued with
  | nil =>
    rw [List.map_eq_nil_iff.mp hnames.symm]
    simp [addAll, entries]
  | cons d rest ih =>
    cases names with
    | nil => cases hnames
    | cons name names =>
      obtain ⟨hname, hrest⟩ := List.cons.inj hnames
      obtain ⟨hnew, hnodup⟩ := List.nodup_cons.mp hnodup
      obtain ⟨hfirst, hothers⟩ := List.forall_mem_cons.mp hfresh
      -- What is left to add is still not there, since no name comes twice.
      have hadded := add_eq (t := t) identify hname issued
      rw [insert_of_fresh hfirst] at hadded
      have hthere : ∀ other ∈ names,
          other ∉ (t.domains ++ [d.entry identify issued name]).map (·.name) := by
        intro other hother hin
        rw [List.map_append, List.mem_append] at hin
        rcases hin with hold | hself
        · exact hothers other hother hold
        · obtain rfl : other = name := List.mem_singleton.mp hself
          exact hnew hother
      simp only [addAll, hadded]
      rw [ih (t := ⟨_⟩) hrest hnodup hthere, issued_cons, entries, List.append_assoc]
      rfl

theorem get?_eq_some (hnodup : (t.domains.map (·.name)).Nodup) {d : ServedDomain}
    (hd : d ∈ t.domains) {domain : String} (hname : Text.lower domain = d.name) :
    t.get? domain = some d := by
  have hsome : (t.get? domain).isSome := List.find?_isSome.mpr ⟨d, hd, by simp [hname]⟩
  obtain ⟨other, hother⟩ := Option.isSome_iff_exists.mp hsome
  have hsame : other.name = d.name := by simpa [hname] using List.find?_some hother
  rw [hother, List.inj_on_of_nodup_map hnodup (List.mem_of_find?_eq_some hother) hd hsame]

theorem get?_eq_none {domain : String} (h : Text.lower domain ∉ t.domains.map (·.name)) :
    t.get? domain = none := by
  refine List.find?_eq_none.mpr fun d hd hname => h ?_
  exact List.mem_map.mpr ⟨d, hd, by simpa using hname⟩

theorem names_perm (t : DomainTable) : t.names.Perm (t.domains.map (·.name)) :=
  List.mergeSort_perm _ _

end DomainTable

/-- The directory knows each listed domain in whatever case its canonical name is written, with the
secret and the policy of its own entry, and it knows no other domain. Where no secret is listed, it
is the identifier that was generated when it was the domain's turn. -/
structure Directory.Represents (d : Directory) (identify : Nat → String) (issued : Nat)
    (domains : List DomainConfig) : Prop where
  listed : ∀ before entry after name domain, domains = before ++ entry :: after →
    Domain.normalize entry.name = .ok name → Text.lower domain = Text.lower name →
      d.isServed domain ∧ d.requiresTls domain = entry.tlsRequired ∧
        d.secretFor domain =
          .ok (entry.secretOr (identify (issued + before.countP (·.lacksSecret) + 1)))
  other : ∀ domain, (∀ entry ∈ domains, ∀ name, Domain.normalize entry.name = .ok name →
    Text.lower domain ≠ Text.lower name) →
      d.isServed domain = false ∧ d.requiresTls domain = false ∧
        d.secretFor domain = .error (.notLocal domain)

namespace DomainTable

theorem represents_entries {domains : List DomainConfig} {names : List String}
    (hnames : domains.map (fun d => Domain.normalize d.name) = names.map .ok)
    (hnodup : names.Nodup) (identify : Nat → String) (issued : Nat) :
    (DomainTable.mk (entries identify issued domains names)).directory.Represents identify issued
      domains := by
  have hlength : domains.length = names.length := by simpa using congrArg List.length hnames
  have hmap := map_name_entries identify issued hlength
  constructor
  · intro before entry after name domain hsplit hname hlower
    subst hsplit
    rw [List.map_append, List.map_cons, hname] at hnames
    obtain ⟨front, back, rfl, hfront, hback⟩ := List.map_eq_append_iff.mp hnames.symm
    obtain ⟨other, rest, rfl, hother, -⟩ := List.map_eq_cons_iff.mp hback
    obtain rfl : other = name := Except.ok.inj hother
    have hmem : entry.entry identify (issued + before.countP (·.lacksSecret)) other ∈
        entries identify issued (before ++ entry :: after) (front ++ other :: rest) := by
      rw [entries_append identify issued (by simpa using (congrArg List.length hfront).symm)]
      exact List.mem_append_right _ List.mem_cons_self
    rw [← hmap] at hnodup
    have hfound := get?_eq_some (t := ⟨_⟩) hnodup hmem
      (hlower.trans (Domain.lower_normalize hname))
    simp [directory, Directory.secretFor, hfound, DomainConfig.entry]
  · intro domain hnone
    have hfound : (DomainTable.mk (entries identify issued domains names)).get? domain = none := by
      refine get?_eq_none fun hin => ?_
      rw [hmap] at hin
      have hok : .ok (Text.lower domain) ∈ domains.map (fun d => Domain.normalize d.name) := by
        rw [hnames]
        exact List.mem_map_of_mem hin
      obtain ⟨entry, hentry, hname⟩ := List.mem_map.mp hok
      exact hnone entry hentry _ hname (Domain.lower_normalize hname).symm
    simp [directory, Directory.secretFor, hfound]

end DomainTable

namespace Config

/-- A configuration that passes the check has a directory. Its names are the canonical forms of the
listed names, all of them distinct and one for each, and it represents the list. -/
theorem directory_of_validated {c : Config} (h : c.validate = .ok ()) (issued : Nat)
    (identify : Nat → String) :
    ∃ names table, c.domains.map (fun d => Domain.normalize d.name) = names.map .ok ∧
      DomainTable.ofConfig issued c.domains identify =
        .ok (table, issued + c.domains.countP (·.lacksSecret)) ∧
      table.names.Perm names ∧ table.names.Nodup ∧ table.names.length = c.domains.length ∧
      table.directory.Represents identify issued c.domains := by
  obtain ⟨names, hnames, hnodup, -⟩ := exists_names (domainFault?_of_validate h)
  have hlength : c.domains.length = names.length := by simpa using congrArg List.length hnames
  have hperm :
      (DomainTable.mk (DomainTable.entries identify issued c.domains names)).names.Perm names := by
    have hsorted := DomainTable.names_perm ⟨DomainTable.entries identify issued c.domains names⟩
    rwa [DomainTable.map_name_entries identify issued hlength] at hsorted
  have hadded := DomainTable.addAll_eq (t := {}) identify hnames hnodup (by simp) issued
  exact ⟨names, ⟨DomainTable.entries identify issued c.domains names⟩, hnames, hadded, hperm,
    hperm.nodup_iff.mpr hnodup, hperm.length_eq.trans hlength.symm,
    DomainTable.represents_entries hnames hnodup identify issued⟩

/-- Of three domains, each spelled in its own way, two get a generated secret. -/
theorem directory_of_validated_spellings :
    let first : DomainConfig :=
      { name := "A.example.", secret := some "s3cret", tlsRequired := true }
    let second : DomainConfig := { name := "b.example" }
    let third : DomainConfig := { name := "[::FF]", secret := some "" }
    let c : Config := { domains := [first, second, third] }
    c.validate = .ok () ∧ ∃ table, DomainTable.ofConfig 0 c.domains = .ok (table, 2) ∧
      table.directory.secretFor "a.EXAMPLE" = .ok "s3cret" ∧
      table.directory.secretFor "b.example" = .ok (identifierText 1) ∧
      table.directory.secretFor "[::ff]" = .ok (identifierText 2) ∧
      table.directory.isServed "c.example" = false := by
  intro first second third c
  have hvalid : c.validate = .ok () := by decide +kernel
  obtain ⟨names, table, hnames, htable, -, -, -, hrepresents⟩ :=
    directory_of_validated hvalid 0 identifierText
  have hname : Domain.normalize first.name = .ok "a.example" ∧
      Domain.normalize second.name = .ok "b.example" ∧
      Domain.normalize third.name = .ok "[::ff]" := by decide +kernel
  have hissued : 0 + c.domains.countP (·.lacksSecret) = 2 := by decide +kernel
  rw [hissued] at htable
  have hcase : Text.lower "a.EXAMPLE" = "a.example" := by decide +kernel
  obtain ⟨-, -, hfirst⟩ :=
    hrepresents.listed [] first [second, third] "a.example" "a.EXAMPLE" rfl hname.1
      (hcase.trans (Domain.lower_normalize hname.1).symm)
  obtain ⟨-, -, hsecond⟩ :=
    hrepresents.listed [first] second [third] "b.example" "b.example" rfl hname.2.1 rfl
  obtain ⟨-, -, hthird⟩ :=
    hrepresents.listed [first, second] third [] "[::ff]" "[::ff]" rfl hname.2.2 rfl
  refine ⟨hvalid, table, htable, ?_, ?_, ?_, ?_⟩
  · rw [hfirst]
    decide +kernel
  · rw [hsecond]
    decide +kernel
  · rw [hthird]
    decide +kernel
  · refine (hrepresents.other "c.example" fun entry hentry name hok => ?_).1
    have hforeign : Text.lower "c.example" ∉ ["a.example", "b.example", "[::ff]"] := by
      decide +kernel
    rw [Domain.lower_normalize hok]
    refine fun hsame => hforeign ?_
    rw [hsame]
    simp only [c, List.mem_cons, List.not_mem_nil, or_false] at hentry
    rcases hentry with rfl | rfl | rfl
    · simp [Except.ok.inj (hok.symm.trans hname.1)]
    · simp [Except.ok.inj (hok.symm.trans hname.2.1)]
    · simp [Except.ok.inj (hok.symm.trans hname.2.2)]

end Config

end Federation
