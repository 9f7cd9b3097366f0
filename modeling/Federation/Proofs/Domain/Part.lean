import Federation.Proofs.Domain.Canonical

/-!
The domain of an address. An address may have a node before its domain and a resource after it. The
first slash of the address begins the resource and the last at sign before it ends the node, so an
at sign in the node and either sign in the resource belong to them and to no domain. Each text is
the text of an address of one domain only, and this is the domain that is read in it.
-/

namespace Federation

namespace Domain

open Federation.Text

structure Address where
  node : Option String := none
  domain : String
  resource : Option String := none

namespace Address

def text (a : Address) : String :=
  ((a.node.map (· ++ "@")).getD "" ++ a.domain) ++ (a.resource.map ("/" ++ ·)).getD ""

/-- The parts of an address may hold whatever does not begin another part in them: no slash before
the resource, and no at sign in the domain. -/
structure IsProper (a : Address) : Prop where
  slash_notMem_node : ∀ node ∈ a.node, '/' ∉ node.toList
  slash_notMem_domain : '/' ∉ a.domain.toList
  at_notMem_domain : '@' ∉ a.domain.toList

end Address

section Characters

theorem dropResource_append {front : List Char} (h : '/' ∉ front) (rest : List Char) :
    dropResource (front ++ '/' :: rest) = front := by
  have hfront := dropResource_eq_self h
  unfold dropResource at hfront ⊢
  rw [List.takeWhile_append, hfront, if_pos rfl, List.takeWhile_cons_of_neg (by simp),
    List.append_nil]

theorem dropNode_append {rest : List Char} (h : '@' ∉ rest) (front : List Char) :
    dropNode (front ++ '@' :: rest) = rest := by
  have hrest := dropNode_eq_self h
  rw [dropNode, List.reverse_eq_iff] at hrest
  rw [dropNode, List.reverse_append, List.reverse_cons, List.append_assoc, List.takeWhile_append,
    hrest, if_pos rfl, List.singleton_append, List.takeWhile_cons_of_neg (by simp),
    List.append_nil, List.reverse_reverse]

theorem slash_notMem_dropResource (address : List Char) : '/' ∉ dropResource address := by
  intro hmem
  simpa using List.mem_takeWhile_imp hmem

theorem at_notMem_dropNode (address : List Char) : '@' ∉ dropNode address := by
  intro hmem
  rw [dropNode, List.mem_reverse] at hmem
  simpa using List.mem_takeWhile_imp hmem

theorem mem_of_mem_dropNode {c : Char} {address : List Char} (h : c ∈ dropNode address) :
    c ∈ address := by
  rw [dropNode, List.mem_reverse] at h
  exact List.mem_reverse.mp ((List.takeWhile_prefix _).subset h)

/-- What is left of a text from the first sign on begins with this sign, if anything is left. -/
theorem takeWhile_ne_cases (sign : Char) (address : List Char) :
    address.takeWhile (· != sign) = address ∨
      ∃ rest, address = address.takeWhile (· != sign) ++ sign :: rest := by
  have hsplit := List.takeWhile_append_dropWhile (p := (· != sign)) (l := address)
  have hhead := List.head?_dropWhile_not (· != sign) address
  cases hdrop : address.dropWhile (· != sign) with
  | nil =>
    rw [hdrop, List.append_nil] at hsplit
    exact Or.inl hsplit
  | cons c rest =>
    rw [hdrop] at hhead hsplit
    obtain rfl : c = sign := by simpa using hhead
    exact Or.inr ⟨rest, hsplit.symm⟩

theorem dropResource_cases (address : List Char) :
    dropResource address = address ∨ ∃ rest, address = dropResource address ++ '/' :: rest :=
  takeWhile_ne_cases '/' address

theorem dropNode_cases (address : List Char) :
    dropNode address = address ∨ ∃ front, address = front ++ '@' :: dropNode address := by
  rcases takeWhile_ne_cases '@' address.reverse with hself | ⟨rest, hrest⟩
  · exact Or.inl (by rw [dropNode, hself, List.reverse_reverse])
  · refine Or.inr ⟨rest.reverse, ?_⟩
    have hreverse := congrArg List.reverse hrest
    simpa [dropNode] using hreverse

end Characters

theorem toList_text (a : Address) :
    a.text.toList = ((a.node.map (·.toList ++ ['@'])).getD [] ++ a.domain.toList) ++
      (a.resource.map ('/' :: ·.toList)).getD [] := by
  obtain ⟨node, domain, resource⟩ := a
  cases node <;> cases resource <;> simp [Address.text]

/-- The domain of an address is read in its text, whatever its node and its resource hold. -/
theorem part_text {a : Address} (h : a.IsProper) : part a.text = a.domain := by
  apply String.toList_injective
  rw [toList_part, toList_text]
  obtain ⟨node, domain, resource⟩ := a
  set front := (node.map (·.toList ++ ['@'])).getD [] ++ domain.toList with hfront
  have hslash : '/' ∉ front := by
    cases node with
    | none => simpa [front] using h.slash_notMem_domain
    | some node =>
      have hnode := h.slash_notMem_node node rfl
      simpa [front, hnode] using h.slash_notMem_domain
  have hresource : dropResource (front ++ (resource.map ('/' :: ·.toList)).getD []) = front := by
    cases resource with
    | none => simpa using dropResource_eq_self hslash
    | some resource => exact dropResource_append hslash resource.toList
  rw [hresource, hfront]
  cases node with
  | none => exact dropNode_eq_self h.at_notMem_domain
  | some node => simpa using dropNode_append h.at_notMem_domain node.toList

theorem notMem_part (text : String) : ∀ x ∈ ['@', '/'], x ∉ (part text).toList := by
  rw [toList_part, List.forall_mem_cons, List.forall_mem_singleton]
  exact ⟨at_notMem_dropNode _, fun hmem =>
    slash_notMem_dropResource text.toList (mem_of_mem_dropNode hmem)⟩

theorem part_part (text : String) : part (part text) = part text :=
  part_eq_self (notMem_part text)

/-- Every text is the text of an address of the domain that is read in it. -/
theorem exists_address (text : String) :
    ∃ a : Address, a.IsProper ∧ a.domain = part text ∧ a.text = text := by
  have hsigns := notMem_part text
  have hdomain : ∀ node resource, (∀ u ∈ node, '/' ∉ u.toList) →
      Address.IsProper ⟨node, part text, resource⟩ := fun node resource hnode =>
    ⟨hnode, hsigns '/' (by decide), hsigns '@' (by decide)⟩
  obtain ⟨node, hnode, hfront⟩ : ∃ node : Option String, (∀ u ∈ node, '/' ∉ u.toList) ∧
      (node.map (·.toList ++ ['@'])).getD [] ++ (part text).toList = dropResource text.toList := by
    rw [toList_part]
    rcases dropNode_cases (dropResource text.toList) with hself | ⟨front, hfront⟩
    · exact ⟨none, by simp, hself⟩
    · refine ⟨some (String.ofList front), fun u hu hmem => ?_, ?_⟩
      · obtain rfl := Option.some.inj hu
        refine slash_notMem_dropResource text.toList ?_
        rw [hfront]
        exact List.mem_append_left _ (by simpa using hmem)
      · simpa using hfront.symm
  obtain ⟨resource, hresource⟩ : ∃ resource : Option String,
      dropResource text.toList ++ (resource.map ('/' :: ·.toList)).getD [] = text.toList := by
    rcases dropResource_cases text.toList with hself | ⟨rest, hrest⟩
    · exact ⟨none, by simpa using hself⟩
    · exact ⟨some (String.ofList rest), by simpa using hrest.symm⟩
  refine ⟨⟨node, part text, resource⟩, hdomain node resource hnode, rfl, ?_⟩
  apply String.toList_injective
  rw [toList_text, hfront, hresource]

theorem toLower_eq_sign_iff {x : Char} (hx : x ∈ ['@', '/']) (c : Char) :
    c.toLower = x ↔ c = x := by
  rcases toLower_eq_or_capital c with hsame | ⟨i, hi, rfl⟩
  · rw [hsame]
  · simp only [List.mem_cons, List.not_mem_nil, or_false] at hx
    rcases hx with rfl | rfl
    all_goals
      revert i
      decide

theorem takeWhile_ne_map_toLower {x : Char} (hx : x ∈ ['@', '/']) (cs : List Char) :
    (cs.map Char.toLower).takeWhile (· != x) = (cs.takeWhile (· != x)).map Char.toLower := by
  rw [List.takeWhile_map]
  congr 2
  funext c
  rw [Function.comp_apply, Bool.eq_iff_iff, bne_iff_ne, bne_iff_ne, ne_eq, ne_eq,
    toLower_eq_sign_iff hx]

/-- The domain of an address in lowercase is the domain in lowercase. -/
theorem part_lower (text : String) : part (lower text) = lower (part text) := by
  apply String.toList_injective
  simp only [toList_part, toList_lower, dropResource, dropNode,
    takeWhile_ne_map_toLower (x := '/') (by decide), ← List.map_reverse,
    takeWhile_ne_map_toLower (x := '@') (by decide)]

end Domain

namespace DomainPair

open Federation.Text

theorem ofAddresses_eq_iff {recipient sender recipient' sender' : String} :
    ofAddresses recipient sender = ofAddresses recipient' sender' ↔
      lower (Domain.part recipient) = lower (Domain.part recipient') ∧
        lower (Domain.part sender) = lower (Domain.part sender') := by
  rw [ofAddresses, ofAddresses, ofTexts, ofTexts, mk.injEq]

/-- The pair that two addresses spell is also spelled by its own two domains. -/
theorem ofAddresses_ofAddresses (recipient sender : String) :
    ofAddresses (ofAddresses recipient sender).own (ofAddresses recipient sender).peer =
      ofAddresses recipient sender := by
  simp only [ofAddresses, ofTexts, Domain.part_lower, Domain.part_part, lower_lower]

/-- The domain that is read in a text is the one of every address that has this text: nothing in its
node or its resource is taken for a domain. It holds no sign that parts an address, so it is read in
itself. Two pairs of addresses spell the same pair just if their domains are alike but for the case
of their letters, and then whatever the case of the rest is; and the other way round they spell the
reversed pair. -/
theorem spelled_by_domains_alone :
    (∀ text domain, Domain.part text = domain ↔
      ∃ a : Domain.Address, a.IsProper ∧ a.domain = domain ∧ a.text = text) ∧
    (∀ text, (∀ x ∈ ['@', '/'], x ∉ (Domain.part text).toList) ∧
      Domain.part (Domain.part text) = Domain.part text) ∧
    (∀ a b a' b' : Domain.Address, a.IsProper → b.IsProper → a'.IsProper → b'.IsProper →
      (ofAddresses a.text b.text = ofAddresses a'.text b'.text ↔
        lower a.domain = lower a'.domain ∧ lower b.domain = lower b'.domain)) ∧
    (∀ recipient sender recipient' sender', lower recipient = lower recipient' →
      lower sender = lower sender' →
        ofAddresses recipient sender = ofAddresses recipient' sender') ∧
    ∀ recipient sender,
      ofAddresses sender recipient = (ofAddresses recipient sender).reversed := by
  refine ⟨fun text domain => ⟨?_, ?_⟩, fun text => ⟨Domain.notMem_part text, ?_⟩,
    fun a b a' b' ha hb ha' hb' => ?_, fun recipient sender recipient' sender' hto hfrom => ?_,
    fun _ _ => rfl⟩
  · rintro rfl
    exact Domain.exists_address text
  · rintro ⟨a, ha, rfl, rfl⟩
    exact Domain.part_text ha
  · exact Domain.part_part text
  · rw [ofAddresses_eq_iff, Domain.part_text ha, Domain.part_text hb, Domain.part_text ha',
      Domain.part_text hb']
  · simp only [ofAddresses_eq_iff, ← Domain.part_lower, hto, hfrom, and_self]

/-- An address whose node and resource hold the signs that part an address. -/
theorem spelled_by_domains_alone_of_signs :
    let a : Domain.Address := ⟨some "x@evil.example", "C.example", some "y@evil.example/z"⟩
    let b : Domain.Address := { domain := "b.example" }
    let bare : Domain.Address := { domain := "c.EXAMPLE" }
    (a.IsProper ∧ b.IsProper ∧ bare.IsProper) ∧
      Domain.part "x@evil.example@C.example/y@evil.example/z" = "C.example" ∧
      ofAddresses a.text b.text = ofAddresses bare.text b.text ∧
      ofAddresses "B.example" "c.example" = ofAddresses "b.example" "C.EXAMPLE" := by
  intro a b bare
  have hproper : a.IsProper ∧ b.IsProper ∧ bare.IsProper := by
    refine ⟨⟨?_, by decide, by decide⟩, ⟨?_, by decide, by decide⟩, ⟨?_, by decide, by decide⟩⟩
    all_goals simp [a, b, bare]
  obtain ⟨hread, -, hpairs, hcase, -⟩ := spelled_by_domains_alone
  obtain ⟨ha, hb, hbare⟩ := hproper
  have htext : a.text = "x@evil.example@C.example/y@evil.example/z" := by
    apply String.toList_injective
    rw [Domain.toList_text]
    decide
  have hdomains : lower "C.example" = lower "c.EXAMPLE" := lower_eq_lower_iff.mpr (by decide)
  have hrecipients : lower "B.example" = lower "b.example" := lower_eq_lower_iff.mpr (by decide)
  have hsenders : lower "c.example" = lower "C.EXAMPLE" := lower_eq_lower_iff.mpr (by decide)
  exact ⟨⟨ha, hb, hbare⟩, (hread _ _).mpr ⟨a, ha, rfl, htext⟩,
    (hpairs a b bare b ha hb hbare hb).mpr ⟨hdomains, rfl⟩,
    hcase _ _ _ _ hrecipients hsenders⟩

end DomainPair

end Federation
