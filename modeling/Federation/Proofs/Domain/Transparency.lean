import Federation.Proofs.Domain.Canonical
import Federation.Proofs.Element.Readability
import Federation.Proofs.Stanza.Dialback

/-!
A canonical name is read as itself wherever it stands. It holds no character that parts an address,
ends a word or has a meaning in XML, so it comes back unchanged from an address and from the text of
a stanza, and the text of a pair of such names is read in one way.
-/

namespace Federation

namespace Text

/-- The bytes of a text are those of its characters. -/
theorem byteLength_toList (s : String) : byteLength s.toList = s.utf8ByteSize := by
  have hofList : ∀ cs : List Char, byteLength cs = (String.ofList cs).utf8ByteSize := by
    intro cs
    induction cs with
    | nil => rfl
    | cons c cs ih =>
      have hcons : String.ofList (c :: cs) = String.singleton c ++ String.ofList cs := by
        rw [String.singleton_eq_ofList, ← String.ofList_append, List.singleton_append]
      rw [byteLength, ih, hcons, String.utf8ByteSize_append, String.utf8ByteSize_singleton]
  rw [hofList, String.ofList_toList]

/-- A character that the lowercase map keeps is no capital. -/
theorem isUpper_eq_false_of_toLower {c : Char} (h : c.toLower = c) : c.isUpper = false := by
  by_contra hupper
  have hcapital : c.val ≥ 'A'.val ∧ c.val ≤ 'Z'.val := by
    unfold Char.isUpper at hupper
    simpa using hupper
  have hval := congrArg Char.val h
  unfold Char.toLower at hval
  rw [dif_pos hcapital] at hval
  simp at hval

/-- What prints in ASCII is neither white space nor a control character. -/
theorem isBlank_isControl_eq_false {c : Char} (hlow : 0x21 ≤ c.toNat) (hhigh : c.toNat ≤ 0x7E) :
    isBlank c = false ∧ isControl c = false := by
  constructor
  · simp only [isBlank, Bool.or_eq_false_iff, Bool.and_eq_false_iff, decide_eq_false_iff_not,
      beq_eq_false_iff_ne]
    omega
  · simp only [isControl, Bool.or_eq_false_iff, Bool.and_eq_false_iff, decide_eq_false_iff_not]
    omega

end Text

namespace Element

/-- A text without special characters is written as it is. -/
theorem escapeChars_eq_self {cs : List Char} (h : ∀ c ∈ cs, c ∉ ['&', '<', '>', '\'', '"']) :
    escapeChars cs = cs := by
  induction cs with
  | nil => rfl
  | cons c cs ih =>
    have hc : escapeChar c = [c] := by
      have hplain := h c List.mem_cons_self
      unfold escapeChar
      split <;> simp_all
    rw [escapeChars_cons, hc, ih fun d hd => h d (List.mem_cons_of_mem c hd), List.singleton_append]

theorem attrs_filled (e : Element) : e.filled.attrs = e.attrs := by
  cases e
  rfl

/-- Whoever reads the text of an element finds the same values in it. -/
theorem attr?_eq_of_toXml_eq {e f : Element} (he : IsNamed e) (hf : IsNamed f)
    (h : f.toXml = e.toXml) (key : String) : f.attr? key = e.attr? key := by
  have hchars : e.xmlChars ++ [] = f.xmlChars ++ [] := by rw [toXml_eq_iff.mp h]
  have hfilled := (he.isReadable f hf [] [] hchars).1
  rw [attr?, attr?, ← attrs_filled f, ← attrs_filled e, hfilled]

end Element

namespace Domain

open Federation.Text

def marks : List Char := ['@', '/', '"', '\'', '&', '<', '>']

/-- A name that nothing around it takes for anything else. -/
structure IsInert (name : String) : Prop where
  ne_empty : name ≠ ""
  size_le : name.utf8ByteSize ≤ maxNameBytes
  isUpper_eq : ∀ c ∈ name.toList, c.isUpper = false
  isBlank_eq : ∀ c ∈ name.toList, isBlank c = false
  isControl_eq : ∀ c ∈ name.toList, isControl c = false
  notMem_marks : ∀ c ∈ name.toList, c ∉ marks
  isLiteral : ∀ c ∈ name.toList, c ∈ ['[', ']', ':'] → IsLiteral name.toList
  part_eq : part name = name
  escape_eq : Element.escape name = name

section Characters

theorem isLiteralChar_bounds {c : Char} (h : isLiteralChar c) :
    0x2E ≤ c.toNat ∧ c.toNat ≤ 0x66 := by
  simp only [isLiteralChar, isHexDigit, Char.isDigit, Bool.or_eq_true, Bool.and_eq_true,
    decide_eq_true_eq, beq_iff_eq, Char.le_def, UInt32.le_iff_toNat_le, ge_iff_le] at h
  rcases h with (((⟨hlow, hhigh⟩ | ⟨hlow, hhigh⟩) | ⟨hlow, hhigh⟩) | rfl) | rfl
  · exact ⟨Nat.le_trans (by decide) hlow, Nat.le_trans hhigh (by decide)⟩
  · exact ⟨Nat.le_trans (by decide) hlow, Nat.le_trans hhigh (by decide)⟩
  · exact ⟨Nat.le_trans (by decide) hlow, Nat.le_trans hhigh (by decide)⟩
  · decide
  · decide

/-- A canonical name holds nothing that ends a word, parts an address or has a meaning in XML. -/
theorem plain_of_mem_canonical {name m : List Char} (h : canonical? name = some m) {c : Char}
    (hc : c ∈ m) : isBlank c = false ∧ isControl c = false ∧ c ∉ marks := by
  rcases isLiteral_or_labels h with ⟨inner, rfl, -, hinner⟩ | hlabels
  · rw [List.mem_cons, List.mem_append, List.mem_singleton] at hc
    rcases hc with rfl | hin | rfl
    · decide
    · obtain ⟨hlow, hhigh⟩ := isLiteralChar_bounds (hinner c hin)
      obtain ⟨hblank, hcontrol⟩ := isBlank_isControl_eq_false (by omega) (by omega : c.toNat ≤ 0x7E)
      refine ⟨hblank, hcontrol, fun hmark => ?_⟩
      have hnone : marks.all (!isLiteralChar ·) := by decide
      exact absurd (hinner c hin) (by simpa using List.all_eq_true.mp hnone c hmark)
    · decide
  · rcases hlabels c hc with rfl | hgood
    · decide
    · simp only [isForbidden, Bool.or_eq_false_iff, List.contains_eq_mem,
        decide_eq_false_iff_not] at hgood
      obtain ⟨⟨hblank, hcontrol⟩, hsigns⟩ := hgood
      refine ⟨hblank, hcontrol, fun hmark => hsigns ?_⟩
      have hsub : marks ⊆ ['@', '/', ':', '"', '\'', '&', '<', '>', '[', ']'] := by decide
      exact hsub hmark

theorem isLiteral_of_mem_canonical {name m : List Char} (h : canonical? name = some m) {c : Char}
    (hc : c ∈ m) (hsign : c ∈ ['[', ']', ':']) : IsLiteral m := by
  rcases isLiteral_or_labels h with hliteral | hlabels
  · exact hliteral
  · have hnone : ∀ sign ∈ ['[', ']', ':'], ¬ (sign = '.' ∨ isForbidden sign = false) := by
      rw [List.forall_mem_cons, List.forall_mem_cons, List.forall_mem_singleton]
      decide
    exact absurd (hlabels c hc) (hnone c hsign)

theorem ne_nil_of_canonical {name m : List Char} (h : canonical? name = some m) : m ≠ [] := by
  rintro rfl
  have hself := canonical?_idempotent h
  simp [canonical?] at hself

theorem byteLength_canonical_le {name m : List Char} (h : canonical? name = some m) :
    byteLength m ≤ maxNameBytes :=
  (canonical?_cases (canonical?_idempotent h)).1

theorem isInert_of_normalize {domain name : String} (h : normalize domain = .ok name) :
    IsInert name := by
  have hcanonical := normalize_eq_ok h
  have hplain := fun c => plain_of_mem_canonical (c := c) hcanonical
  have hlower := map_toLower_canonical hcanonical
  refine ⟨?_, ?_, ?_, fun c hc => (hplain c hc).1, fun c hc => (hplain c hc).2.1,
    fun c hc => (hplain c hc).2.2, fun c hc => isLiteral_of_mem_canonical hcanonical hc,
    part_normalize h, ?_⟩
  · rintro rfl
    exact ne_nil_of_canonical hcanonical rfl
  · rw [← byteLength_toList]
    exact byteLength_canonical_le hcanonical
  · intro c hc
    have hsame := List.map_inj_left.mp (hlower.trans (List.map_id _).symm) c hc
    exact isUpper_eq_false_of_toLower hsame
  · apply String.toList_injective
    rw [Element.toList_escape]
    refine Element.escapeChars_eq_self fun c hc hmark => (hplain c hc).2.2 ?_
    have hsub : ['&', '<', '>', '\'', '"'] ⊆ marks := by decide
    exact hsub hmark

end Characters

end Domain

namespace DomainPair

variable {isServed isServed' : String → Bool}

/-- The at sign in the text of a pair parts its two sides. -/
theorem IsCanonical.eq_of_text_eq {p q : DomainPair} (hp : p.IsCanonical isServed)
    (hq : q.IsCanonical isServed') (h : p.text = q.text) : p = q := by
  have hsign : ∀ {served : String → Bool} {r : DomainPair}, r.IsCanonical served →
      ∀ c ∈ r.own.toList, c ≠ '@' := by
    rintro served r hr c hc rfl
    have hown := Domain.normalize_eq_ok (checked_eq_ok_iff.mp hr).1
    exact (Domain.plain_of_mem_canonical hown hc).2.2 (by decide)
  have hchars : p.own.toList ++ '@' :: p.peer.toList = q.own.toList ++ '@' :: q.peer.toList := by
    have hlists := congrArg String.toList h
    simpa [text] using hlists
  obtain ⟨hown, hpeer⟩ :=
    Element.append_stop_inj (hsign hp) (hsign hq) (by simp) (by simp) hchars
  have hown' := String.toList_injective hown
  have hpeer' := String.toList_injective (List.cons.inj hpeer).2
  cases p
  cases q
  simp_all

end DomainPair

namespace Domain

open Federation.Text

/-- The canonical form of a name is the name in lowercase without its root dot, whatever the case of
its letters, and is its own canonical form. Nothing around it takes it for anything else: so the
text of two checked pairs tells them apart, and whoever reads the text of an element in which a
canonical name stands finds this domain there. -/
theorem canonical_form_is_inert :
    (∀ domain name, normalize domain = .ok name →
      lower domain = name ++ rootDot domain ∧ normalize name = .ok name ∧
        (∀ other, lower other = lower domain → normalize other = .ok name) ∧ IsInert name) ∧
    (∀ own peer own' peer' isServed isServed' p q,
      DomainPair.checked own peer isServed = .ok p →
        DomainPair.checked own' peer' isServed' = .ok q → p.text = q.text → p = q) ∧
    ∀ domain name, normalize domain = .ok name → ∀ e f key, Element.IsNamed e →
      Element.IsNamed f → e.attr? key = some name → f.toXml = e.toXml →
        (f.attr? key).map part = some name := by
  refine ⟨fun domain name h => ?_, fun own peer own' peer' isServed isServed' p q hp hq htext => ?_,
    fun domain name h e f key he hf hkey hxml => ?_⟩
  · exact ⟨lower_eq_append_rootDot h, normalize_idempotent h,
      fun other hother => normalize_of_lower_eq h hother, isInert_of_normalize h⟩
  · exact (DomainPair.isCanonical_of_checked hp).eq_of_text_eq
      (DomainPair.isCanonical_of_checked hq) htext
  · rw [Element.attr?_eq_of_toXml_eq he hf hxml, hkey, Option.map_some, part_normalize h]

/-- A name with a root dot and one in brackets, two ways to check one pair, and an element that
names the second domain. -/
theorem canonical_form_is_inert_of_root_dot :
    let isServed := fun domain => domain == "b.example"
    let e : Element := ⟨"message", [("to", "[::ff]")], none, []⟩
    normalize "Example.COM." = .ok "example.com" ∧ normalize "[::FF]" = .ok "[::ff]" ∧
    lower "Example.COM." = "example.com" ++ rootDot "Example.COM." ∧
    normalize "eXAMPLE.com." = .ok "example.com" ∧ IsInert "example.com" ∧ IsInert "[::ff]" ∧
    (∀ p q, DomainPair.checked "B.example." "a.example" isServed = .ok p →
      DomainPair.checked "b.example" "A.example." isServed = .ok q → p.text = q.text → p = q) ∧
    Element.IsNamed e ∧ (e.attr? "to").map part = some "[::ff]" := by
  intro isServed e
  have hdotted : normalize "Example.COM." = .ok "example.com" := by decide +kernel
  have hliteral : normalize "[::FF]" = .ok "[::ff]" := by decide +kernel
  have hcase : lower "eXAMPLE.com." = lower "Example.COM." := by
    apply String.toList_injective
    rw [toList_lower, toList_lower]
    decide
  have hnamed : Element.IsNamed e := .intro (by decide) (by decide) (by simp)
  obtain ⟨hnames, hpairs, hread⟩ := canonical_form_is_inert
  obtain ⟨hroot, -, hcases, hinert⟩ := hnames _ _ hdotted
  exact ⟨hdotted, hliteral, hroot, hcases "eXAMPLE.com." hcase, hinert,
    (hnames _ _ hliteral).2.2.2, hpairs _ _ _ _ isServed isServed, hnamed,
    hread _ _ hliteral e e "to" hnamed hnamed (by decide) rfl⟩

end Domain

end Federation
