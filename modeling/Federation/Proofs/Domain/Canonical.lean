import Federation.Domain.Pair
import Mathlib.Data.List.TakeWhile

/-!
The canonical form of a domain name is a fixed point: of itself, of the lowercase map, and of taking
the domain part of an address. So a pair that has been checked once is found again under the same
name wherever it is written into a stanza and read back.
-/

namespace Federation

namespace Text

/-- Only the capitals of ASCII are changed by the lowercase map. -/
theorem toLower_eq_or_capital (c : Char) :
    c.toLower = c ∨ ∃ i < 26, c = Char.ofNat (65 + i) := by
  unfold Char.toLower
  split
  · rename_i hcapital
    have hlow : 65 ≤ c.toNat := UInt32.le_iff_toNat_le.mp hcapital.1
    have hhigh : c.toNat ≤ 90 := UInt32.le_iff_toNat_le.mp hcapital.2
    refine Or.inr ⟨c.toNat - 65, by omega, ?_⟩
    rw [Nat.add_sub_cancel' hlow, Char.ofNat_toNat]
  · exact Or.inl rfl

theorem toLower_toLower (c : Char) : c.toLower.toLower = c.toLower := by
  rcases toLower_eq_or_capital c with hsame | ⟨i, hi, rfl⟩
  · rw [hsame, hsame]
  · revert i
    decide

theorem utf8Size_toLower (c : Char) : c.toLower.utf8Size = c.utf8Size := by
  rcases toLower_eq_or_capital c with hsame | ⟨i, hi, rfl⟩
  · rw [hsame]
  · revert i
    decide

/-- A character that is no letter comes from itself only. -/
theorem toLower_eq_iff {x : Char} (hx : x ∈ ['.', '-', '[', ']']) (c : Char) :
    c.toLower = x ↔ c = x := by
  rcases toLower_eq_or_capital c with hsame | ⟨i, hi, rfl⟩
  · rw [hsame]
  · simp only [List.mem_cons, List.not_mem_nil, or_false] at hx
    rcases hx with rfl | rfl | rfl | rfl
    all_goals
      revert i
      decide

theorem map_toLower_map_toLower (cs : List Char) :
    (cs.map Char.toLower).map Char.toLower = cs.map Char.toLower := by
  rw [List.map_map]
  exact List.map_congr_left fun c _ => toLower_toLower c

@[simp] theorem lower_lower (s : String) : lower (lower s) = lower s := by
  apply String.toList_injective
  rw [toList_lower, toList_lower, map_toLower_map_toLower]

theorem lower_eq_lower_iff {s t : String} :
    lower s = lower t ↔ s.toList.map Char.toLower = t.toList.map Char.toLower := by
  rw [← String.toList_inj, toList_lower, toList_lower]

theorem byteLength_map_toLower (cs : List Char) :
    byteLength (cs.map Char.toLower) = byteLength cs := by
  induction cs with
  | nil => rfl
  | cons c rest ih => simp only [List.map_cons, byteLength, utf8Size_toLower, ih]

theorem byteLength_dropLast_le (cs : List Char) : byteLength cs.dropLast ≤ byteLength cs := by
  induction cs with
  | nil => simp
  | cons c rest ih =>
    cases rest with
    | nil => simp [byteLength]
    | cons d tail =>
      simp only [List.dropLast_cons_cons, byteLength] at ih ⊢
      omega

end Text

namespace Domain

open Federation.Text

theorem isForbidden_toLower (c : Char) : isForbidden c.toLower = isForbidden c := by
  rcases toLower_eq_or_capital c with hsame | ⟨i, hi, rfl⟩
  · rw [hsame]
  · revert i
    decide

theorem isLiteralChar_toLower (c : Char) : isLiteralChar c.toLower = isLiteralChar c := by
  rcases toLower_eq_or_capital c with hsame | ⟨i, hi, rfl⟩
  · rw [hsame]
  · revert i
    decide

theorem getLast?_map_toLower {x : Char} (hx : x ∈ ['.', '-', '[', ']']) (cs : List Char) :
    (cs.map Char.toLower).getLast? = some x ↔ cs.getLast? = some x := by
  rw [List.getLast?_map]
  cases cs.getLast? with
  | none => simp
  | some c => simpa using toLower_eq_iff hx c

theorem head?_map_toLower {x : Char} (hx : x ∈ ['.', '-', '[', ']']) (cs : List Char) :
    (cs.map Char.toLower).head? = some x ↔ cs.head? = some x := by
  rw [List.head?_map]
  cases cs.head? with
  | none => simp
  | some c => simpa using toLower_eq_iff hx c

theorem any_isForbidden_map_toLower (cs : List Char) :
    (cs.map Char.toLower).any isForbidden = cs.any isForbidden := by
  rw [List.any_map]
  congr 1
  exact funext isForbidden_toLower

theorem isLabel_map_toLower (label : List Char) :
    isLabel (label.map Char.toLower) = isLabel label := by
  have hhead := head?_map_toLower (x := '-') (by decide) label
  have hlast := getLast?_map_toLower (x := '-') (by decide) label
  rw [Bool.eq_iff_iff]
  simp only [isLabel, Bool.and_eq_true, Bool.not_eq_true', bne_iff_ne, ne_eq, hhead, hlast,
    any_isForbidden_map_toLower, byteLength_map_toLower, List.isEmpty_map]

theorem isLiteralTail_map_toLower (tail : List Char) :
    isLiteralTail (tail.map Char.toLower) = isLiteralTail tail := by
  have hlast := getLast?_map_toLower (x := ']') (by decide) tail
  have hall : (tail.dropLast.map Char.toLower).all isLiteralChar =
      tail.dropLast.all isLiteralChar := by
    rw [List.all_map]
    congr 1
    exact funext isLiteralChar_toLower
  rw [Bool.eq_iff_iff]
  simp only [isLiteralTail, ← List.map_dropLast, hall, List.isEmpty_map, Bool.and_eq_true,
    beq_iff_eq, hlast]

theorem splitOn_map_toLower (name : List Char) :
    (name.map Char.toLower).splitOn '.' = (name.splitOn '.').map (List.map Char.toLower) := by
  induction name with
  | nil => rfl
  | cons c rest ih =>
    have hdot : (c.toLower == '.') = (c == '.') := by
      rw [Bool.eq_iff_iff]
      simpa using toLower_eq_iff (x := '.') (by decide) c
    simp only [List.map_cons, List.splitOn_cons_eq_if_modifyHead, hdot]
    split
    · simp [ih]
    · rw [ih]
      cases rest.splitOn '.' <;> rfl

/-- A name whose labels are all labels has no dot at its end. -/
theorem getLast?_ne_dot {name : List Char} (h : (name.splitOn '.').all isLabel) :
    name.getLast? ≠ some '.' := by
  intro hdot
  obtain ⟨front, rfl⟩ : ∃ front, name = front ++ ['.'] := by
    rw [List.getLast?_eq_some_iff] at hdot
    exact hdot
  rw [List.splitOn_append_cons_self, List.splitOn_nil] at h
  simp [isLabel] at h

theorem dropRootDot_of_labels {name : List Char} (h : (name.splitOn '.').all isLabel) :
    dropRootDot name = name := by
  rw [dropRootDot, if_neg (getLast?_ne_dot h)]

theorem byteLength_dropRootDot_le (name : List Char) :
    byteLength (dropRootDot name) ≤ byteLength name := by
  unfold dropRootDot
  split
  · exact byteLength_dropLast_le name
  · exact Nat.le_refl _

theorem mem_splitOn {c : Char} {name : List Char} (h : c ∈ name) :
    c = '.' ∨ ∃ label ∈ name.splitOn '.', c ∈ label := by
  induction name with
  | nil => simp at h
  | cons d rest ih =>
    rw [List.splitOn_cons_eq_if_modifyHead]
    by_cases hdot : d = '.'
    · rcases List.mem_cons.mp h with rfl | hrest
      · exact Or.inl hdot
      · rcases ih hrest with heq | ⟨label, hlabel, hc⟩
        · exact Or.inl heq
        · exact Or.inr ⟨label, by simp [hdot, hlabel], hc⟩
    · obtain ⟨first, others, hsplit⟩ := List.exists_cons_of_ne_nil (List.splitOn_ne_nil '.' rest)
      simp only [hsplit, beq_iff_eq, hdot, if_false, List.modifyHead_cons] at ih ⊢
      rcases List.mem_cons.mp h with rfl | hrest
      · exact Or.inr ⟨c :: first, by simp⟩
      · rcases ih hrest with heq | ⟨label, hlabel, hc⟩
        · exact Or.inl heq
        · rcases List.mem_cons.mp hlabel with rfl | hother
          · exact Or.inr ⟨d :: label, by simp, List.mem_cons_of_mem d hc⟩
          · exact Or.inr ⟨label, List.mem_cons_of_mem _ hother, hc⟩

/-- The two ways to a canonical form: an address literal is kept, labels lose the closing dot. -/
theorem canonical?_cases {name m : List Char} (h : canonical? name = some m) :
    byteLength name ≤ maxNameBytes ∧
      ((∃ tail, name = '[' :: tail ∧ isLiteralTail tail ∧ m = name.map Char.toLower) ∨
        (((dropRootDot name).splitOn '.').all isLabel ∧
          m = (dropRootDot name).map Char.toLower)) := by
  unfold canonical? at h
  split at h
  · cases h
  · rename_i hsize
    simp only [Bool.or_eq_true, decide_eq_true_eq, not_or, Nat.not_lt] at hsize
    refine ⟨hsize.2, ?_⟩
    split at h
    · rename_i tail
      split at h
      · rename_i htail
        exact Or.inl ⟨tail, rfl, htail, (Option.some.inj h).symm⟩
      · cases h
    · split at h
      · rename_i hlabels
        exact Or.inr ⟨hlabels, (Option.some.inj h).symm⟩
      · cases h

theorem canonical?_of_labels {name : List Char} (hsize : byteLength name ≤ maxNameBytes)
    (hlabels : (name.splitOn '.').all isLabel) :
    canonical? name = some (name.map Char.toLower) := by
  have hroot := dropRootDot_of_labels hlabels
  have hlong : ¬ maxNameBytes < byteLength name := Nat.not_lt.mpr hsize
  cases name with
  | nil => simp [List.splitOn_nil, isLabel] at hlabels
  | cons c rest =>
    have hc : c ≠ '[' := by
      rintro rfl
      rcases mem_splitOn (List.mem_cons_self (a := '[') (l := rest)) with hdot | ⟨label, hmem, hin⟩
      · exact absurd hdot (by decide)
      · have hlabel := List.all_eq_true.mp hlabels label hmem
        simp only [isLabel, Bool.and_eq_true, Bool.not_eq_true', List.any_eq_false] at hlabel
        exact hlabel.2 '[' hin (by decide)
    unfold canonical?
    simp [hlong, hc, hroot, hlabels]

theorem dropRootDot_map_toLower (name : List Char) :
    dropRootDot (name.map Char.toLower) = (dropRootDot name).map Char.toLower := by
  unfold dropRootDot
  simp only [getLast?_map_toLower (x := '.') (by decide)]
  split
  · rw [List.map_dropLast]
  · rfl

/-- The case of its letters does not matter to the canonical form of a name. -/
theorem canonical?_map_toLower (name : List Char) :
    canonical? (name.map Char.toLower) = canonical? name := by
  have htwice : Char.toLower ∘ Char.toLower = Char.toLower := funext toLower_toLower
  cases name with
  | nil => rfl
  | cons c rest =>
    have hlength := byteLength_map_toLower (c :: rest)
    have hroot := dropRootDot_map_toLower (c :: rest)
    by_cases hbracket : c = '['
    · subst hbracket
      have hlower : Char.toLower '[' = '[' := by decide
      rw [List.map_cons, hlower] at hlength ⊢
      unfold canonical?
      simp [hlength, isLiteralTail_map_toLower, hlower, htwice]
    · have hlower : c.toLower ≠ '[' := fun h => hbracket ((toLower_eq_iff (by decide) c).mp h)
      have hlabel : isLabel ∘ List.map Char.toLower = isLabel := funext isLabel_map_toLower
      rw [List.map_cons] at hlength hroot ⊢
      unfold canonical?
      simp [hlength, hbracket, hlower, hroot, splitOn_map_toLower, hlabel, htwice]

/-- The canonical form is its own canonical form. -/
theorem canonical?_idempotent {name m : List Char} (h : canonical? name = some m) :
    canonical? m = some m := by
  obtain ⟨hsize, ⟨tail, rfl, htail, rfl⟩ | ⟨hlabels, rfl⟩⟩ := canonical?_cases h
  · rw [canonical?_map_toLower, h]
  · rw [canonical?_map_toLower]
    exact canonical?_of_labels (Nat.le_trans (byteLength_dropRootDot_le name) hsize) hlabels

theorem map_toLower_canonical {name m : List Char} (h : canonical? name = some m) :
    m.map Char.toLower = m := by
  obtain ⟨-, ⟨_, -, -, rfl⟩ | ⟨-, rfl⟩⟩ := canonical?_cases h
  · exact map_toLower_map_toLower _
  · exact map_toLower_map_toLower _

def IsLiteral (name : List Char) : Prop :=
  ∃ inner, name = '[' :: (inner ++ [']']) ∧ inner ≠ [] ∧ ∀ c ∈ inner, isLiteralChar c

/-- The two forms of a canonical name: an address literal, or labels with dots between them. -/
theorem isLiteral_or_labels {name m : List Char} (h : canonical? name = some m) :
    IsLiteral m ∨ ∀ c ∈ m, c = '.' ∨ isForbidden c = false := by
  obtain ⟨-, ⟨tail, rfl, htail, rfl⟩ | ⟨hlabels, rfl⟩⟩ := canonical?_cases h
  · left
    simp only [isLiteralTail, Bool.and_eq_true, beq_iff_eq, Bool.not_eq_true',
      List.isEmpty_eq_false_iff] at htail
    obtain ⟨⟨hlast, hinner⟩, hchars⟩ := htail
    obtain ⟨inner, rfl⟩ := List.getLast?_eq_some_iff.mp hlast
    rw [List.dropLast_concat] at hinner hchars
    refine ⟨inner.map Char.toLower, by simp, by simpa using hinner, fun c hc => ?_⟩
    obtain ⟨d, hd, rfl⟩ := List.mem_map.mp hc
    rw [isLiteralChar_toLower]
    exact List.all_eq_true.mp hchars d hd
  · right
    intro c hc
    obtain ⟨d, hd, rfl⟩ := List.mem_map.mp hc
    rw [toLower_eq_iff (by decide), isForbidden_toLower]
    refine (mem_splitOn hd).imp_right ?_
    rintro ⟨label, hlabel, hin⟩
    have hgood := List.all_eq_true.mp hlabels label hlabel
    simp only [isLabel, Bool.and_eq_true, Bool.not_eq_true', List.any_eq_false] at hgood
    simpa using hgood.2 d hin

/-- A canonical name holds none of the signs that part an address. -/
theorem address_sign_not_mem_canonical {name m : List Char} (h : canonical? name = some m)
    {x : Char} (hx : x ∈ ['@', '/']) : x ∉ m := by
  have hno : ∀ x ∈ ['@', '/'], x ∉ ['[', ']', '.'] ∧ isLiteralChar x = false ∧ isForbidden x := by
    rw [List.forall_mem_cons, List.forall_mem_singleton]
    decide
  obtain ⟨hbracket, hliteral, hforbidden⟩ := hno x hx
  intro hmem
  rcases isLiteral_or_labels h with ⟨inner, rfl, -, hinner⟩ | hlabels
  · rw [List.mem_cons, List.mem_append, List.mem_singleton] at hmem
    rcases hmem with rfl | hin | rfl
    · exact absurd hbracket (by decide)
    · exact absurd (hinner x hin) (by simp [hliteral])
    · exact absurd hbracket (by decide)
  · rcases hlabels x hmem with rfl | hgood
    · exact absurd hbracket (by decide)
    · exact absurd hforbidden (by simp [hgood])

theorem normalize_eq_ok {domain name : String} (h : normalize domain = .ok name) :
    canonical? domain.toList = some name.toList := by
  unfold normalize at h
  split at h
  · rename_i m hm
    cases h
    rw [hm, String.toList_ofList]
  · cases h

/-- A canonical name is its own canonical form. -/
theorem normalize_idempotent {domain name : String} (h : normalize domain = .ok name) :
    normalize name = .ok name := by
  simp only [normalize, canonical?_idempotent (normalize_eq_ok h), String.ofList_toList]

theorem lower_normalize {domain name : String} (h : normalize domain = .ok name) :
    lower name = name := by
  apply String.toList_injective
  rw [toList_lower]
  exact map_toLower_canonical (normalize_eq_ok h)

theorem dropResource_eq_self {address : List Char} (h : '/' ∉ address) :
    dropResource address = address := by
  apply List.takeWhile_eq_self_iff.mpr
  intro c hc
  simpa using fun heq : c = '/' => h (heq ▸ hc)

theorem dropNode_eq_self {address : List Char} (h : '@' ∉ address) :
    dropNode address = address := by
  have hnode : address.reverse.takeWhile (· != '@') = address.reverse := by
    apply List.takeWhile_eq_self_iff.mpr
    intro c hc
    simpa using fun heq : c = '@' => h (heq ▸ List.mem_reverse.mp hc)
  rw [dropNode, hnode, List.reverse_reverse]

/-- An address without the signs that part one is all domain. -/
theorem part_eq_self {address : String} (h : ∀ x ∈ ['@', '/'], x ∉ address.toList) :
    part address = address := by
  apply String.toList_injective
  rw [toList_part, dropResource_eq_self (h '/' (by decide)), dropNode_eq_self (h '@' (by decide))]

/-- A canonical name is read back from an address that consists of it alone. -/
theorem part_normalize {domain name : String} (h : normalize domain = .ok name) :
    part name = name :=
  part_eq_self fun _ hx => address_sign_not_mem_canonical (normalize_eq_ok h) hx

def rootDot (name : String) : String :=
  if name.toList.getLast? = some '.' then "." else ""

/-- Names that differ in the case of their letters only have one canonical form. -/
theorem normalize_of_lower_eq {domain other name : String} (h : normalize domain = .ok name)
    (hlower : lower other = lower domain) : normalize other = .ok name := by
  rw [normalize, ← canonical?_map_toLower, lower_eq_lower_iff.mp hlower, canonical?_map_toLower,
    normalize_eq_ok h]
  exact congrArg Except.ok String.ofList_toList

/-- The canonical form is the lowercase name without its root dot. -/
theorem lower_eq_append_rootDot {domain name : String} (h : normalize domain = .ok name) :
    lower domain = name ++ rootDot domain := by
  apply String.toList_injective
  rw [toList_lower, String.toList_append, rootDot]
  obtain ⟨-, ⟨tail, hdomain, htail, hname⟩ | ⟨-, hname⟩⟩ := canonical?_cases (normalize_eq_ok h)
  · have hend : domain.toList.getLast? ≠ some '.' := by
      simp only [isLiteralTail, Bool.and_eq_true, beq_iff_eq] at htail
      rw [hdomain, List.getLast?_cons, htail.1.1]
      decide
    rw [if_neg hend, hname]
    simp
  · rw [hname]
    split
    · rename_i hdot
      rw [dropRootDot, if_pos hdot]
      obtain ⟨front, hfront⟩ := List.getLast?_eq_some_iff.mp hdot
      rw [hfront]
      simp
    · rename_i hdot
      rw [dropRootDot, if_neg hdot]
      simp

/-- A sign that has no lowercase form and is no dot stands in a name only if it stands in the
canonical form. -/
theorem mem_of_normalize {domain name : String} (h : normalize domain = .ok name) {x : Char}
    (hlower : x.toLower = x) (hdot : x ≠ '.') (hx : x ∈ domain.toList) : x ∈ name.toList := by
  have hin : x ∈ (lower domain).toList := by
    rw [toList_lower, ← hlower]
    exact List.mem_map_of_mem hx
  rw [lower_eq_append_rootDot h, String.toList_append, List.mem_append] at hin
  rcases hin with hname | hroot
  · exact hname
  · unfold rootDot at hroot
    split at hroot
    · exact absurd (by simpa using hroot) hdot
    · simp at hroot

end Domain

namespace DomainPair

open Federation.Text

/-- A pair of canonical names, the first served and the second not. -/
def IsCanonical (isServed : String → Bool) (pair : DomainPair) : Prop :=
  checked pair.own pair.peer isServed = .ok pair

variable {isServed : String → Bool}

theorem checked_eq_ok_iff {own peer : String} {pair : DomainPair} :
    checked own peer isServed = .ok pair ↔
      Domain.normalize own = .ok pair.own ∧ Domain.normalize peer = .ok pair.peer ∧
        isServed pair.own ∧ ¬ isServed pair.peer := by
  unfold checked
  cases hown : Domain.normalize own with
  | error e => simp
  | ok o =>
    cases hpeer : Domain.normalize peer with
    | error e => simp
    | ok p =>
      obtain ⟨po, pp⟩ := pair
      by_cases ho : isServed o <;> by_cases hp : isServed p <;> simp [ho, hp] <;> grind

/-- What has been checked once passes the check again, and stays as it is. -/
theorem isCanonical_of_checked {own peer : String} {pair : DomainPair}
    (h : checked own peer isServed = .ok pair) : pair.IsCanonical isServed := by
  obtain ⟨hown, hpeer, hserved, hforeign⟩ := checked_eq_ok_iff.mp h
  exact checked_eq_ok_iff.mpr
    ⟨Domain.normalize_idempotent hown, Domain.normalize_idempotent hpeer, hserved, hforeign⟩

namespace IsCanonical

variable {pair : DomainPair}

theorem lower_own (h : pair.IsCanonical isServed) : lower pair.own = pair.own :=
  Domain.lower_normalize (checked_eq_ok_iff.mp h).1

theorem lower_peer (h : pair.IsCanonical isServed) : lower pair.peer = pair.peer :=
  Domain.lower_normalize (checked_eq_ok_iff.mp h).2.1

theorem part_own (h : pair.IsCanonical isServed) : Domain.part pair.own = pair.own :=
  Domain.part_normalize (checked_eq_ok_iff.mp h).1

theorem part_peer (h : pair.IsCanonical isServed) : Domain.part pair.peer = pair.peer :=
  Domain.part_normalize (checked_eq_ok_iff.mp h).2.1

/-- A stanza addressed from one canonical name to another names just these two. -/
theorem ofAddresses_eq (h : pair.IsCanonical isServed) :
    ofAddresses pair.own pair.peer = pair := by
  rw [ofAddresses, ofTexts, h.part_own, h.part_peer, h.lower_own, h.lower_peer]

end IsCanonical

end DomainPair

end Federation
